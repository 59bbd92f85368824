/-!
# HTTP messages

As much of a request and of a response as the gateway and its clients look at.  Bodies are texts.

* `Request`, `Response` — the messages.
* `reasonPhrase?` — the registered phrase of a status.
-/

namespace ControlPlane.Http

/-- A request: its method, its target with the query, its headers by lower-case name, its body. -/
structure Request where
  method : String
  target : String
  headers : List (String × String)
  body : String
  deriving DecidableEq, Repr

/-- The value of a header. -/
def Request.header? (r : Request) (name : String) : Option String := r.headers.lookup name

/-- The request line for a server at an address. -/
def Request.line (r : Request) (address : String) : String :=
  s!"{r.method} http://{address}{r.target} HTTP/1.1"

/-- The headers as they are sent, one to a line. -/
def Request.headerLines (r : Request) : List String := r.headers.map fun h => s!"{h.1}: {h.2}"

/-- A response: its status, its body, and whether the body is declared to be JSON. -/
structure Response where
  status : Nat
  isJson : Bool
  body : String
  deriving DecidableEq, Repr

/-- Whether a status reports success. -/
def isSuccess (status : Nat) : Bool := 200 ≤ status && status < 300

/-- The registered statuses and their phrases. -/
def reasonPhrases : List (Nat × String) :=
  [(100, "Continue"), (101, "Switching Protocols"), (102, "Processing"), (103, "Early Hints"),
    (200, "OK"), (201, "Created"), (202, "Accepted"), (203, "Non Authoritative Information"),
    (204, "No Content"), (205, "Reset Content"), (206, "Partial Content"), (207, "Multi-Status"),
    (208, "Already Reported"), (226, "IM Used"),
    (300, "Multiple Choices"), (301, "Moved Permanently"), (302, "Found"), (303, "See Other"),
    (304, "Not Modified"), (305, "Use Proxy"), (307, "Temporary Redirect"),
    (308, "Permanent Redirect"),
    (400, "Bad Request"), (401, "Unauthorized"), (402, "Payment Required"), (403, "Forbidden"),
    (404, "Not Found"), (405, "Method Not Allowed"), (406, "Not Acceptable"),
    (407, "Proxy Authentication Required"), (408, "Request Timeout"), (409, "Conflict"),
    (410, "Gone"), (411, "Length Required"), (412, "Precondition Failed"),
    (413, "Payload Too Large"), (414, "URI Too Long"), (415, "Unsupported Media Type"),
    (416, "Range Not Satisfiable"), (417, "Expectation Failed"), (418, "I'm a teapot"),
    (421, "Misdirected Request"), (422, "Unprocessable Entity"), (423, "Locked"),
    (424, "Failed Dependency"), (425, "Too Early"), (426, "Upgrade Required"),
    (428, "Precondition Required"), (429, "Too Many Requests"),
    (431, "Request Header Fields Too Large"), (451, "Unavailable For Legal Reasons"),
    (500, "Internal Server Error"), (501, "Not Implemented"), (502, "Bad Gateway"),
    (503, "Service Unavailable"), (504, "Gateway Timeout"), (505, "HTTP Version Not Supported"),
    (506, "Variant Also Negotiates"), (507, "Insufficient Storage"), (508, "Loop Detected"),
    (510, "Not Extended"), (511, "Network Authentication Required")]

/-- The registered phrase of a status. -/
def reasonPhrase? (status : Nat) : Option String := reasonPhrases.lookup status

end ControlPlane.Http
