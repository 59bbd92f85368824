import Mathlib
import ControlPlane.Proofs.Client.Edits
import ControlPlane.Proofs.Cluster.Account

/-!
# Resources that are taken for each other

A resource is compared by its digest, which is that of its bytes, or of its URL.  So among built resources whose
contents do not collide, a resource is taken for itself, and a URL for a file with the text of this URL.  A bundle
that holds one of the two answers that it has the other, and a deployment puts one in the place of the other.

* `World.Stocks` — what is true of every resource that is deployed is true of those in the store.
* `Bundle.add_cases` — what an accepted addition leaves under the name of a resource.
* `World.taken_for_each_other` — the statement about bundles and runs; `World.link_is_taken_for_text` — a
  library by its URL, and by its text.
-/

namespace ControlPlane

/-! ## What is in the store -/

namespace World

variable {P : String → Resource → Prop} {w v : World}

/-- **What is true of all resources that have been stored** is true of those that are there. -/
def Stocks (P : String → Resource → Prop) (w : World) : Prop :=
  (∀ s ∈ w.past, s.action.Brings P) → w.cluster.store.Stocked P

namespace Stocks

lemma of_store (h : w.Stocks P) (past : v.past = w.past) (store : v.cluster.store = w.cluster.store) :
    v.Stocks P := by
  unfold Stocks
  rw [past, store]
  exact h

lemma step (h : w.Stocks P) {a : Action} (named : a.Named) : (w.perform [a]).Stocks P := by
  intro brings
  have before := h fun s member => brings s (List.mem_append_left _ member)
  have here := brings ⟨w.cluster, a⟩ (List.mem_append_right _ List.mem_cons_self)
  exact before.step named here

theorem run (h : w.Stocks P) (orderly : w.Orderly) (turns : List Turn) : (w.run turns).Stocks P :=
  orderly.run_keeps (P := Stocks P) of_store (fun stocks named => stocks.step named) h turns

end Stocks

end World

/-! ## Bundles -/

namespace Bundle

variable {b b' : Bundle} {x : Resource} {new : Bool}

/-- **An accepted addition** puts the resource under its name, or finds one there that it is taken for. -/
lemma add_cases (added : b.add x = .ok (new, b')) :
    new = true ∧ b'.find? x.name = some x
      ∨ new = false ∧ b' = b ∧ ∃ old, b.find? x.name = some old ∧ old.sameContent x = true := by
  unfold add at added
  split_ifs at added
  · simp [Except.bind_eq_ok_iff] at added
  obtain ⟨fresh, answer, added⟩ := Except.bind_eq_ok_iff.mp added
  cases fresh with
  | true =>
      obtain ⟨rfl, rfl⟩ : true = new ∧ { b with resources := b.resources.insert x.name x } = b' := by
        simpa [pure, Except.pure] using added
      exact .inl ⟨rfl, by simp [find?]⟩
  | false =>
      obtain ⟨rfl, rfl⟩ : false = new ∧ b = b' := by simpa [pure, Except.pure] using added
      unfold isNew at answer
      cases found : b.resources.find? x.name with
      | none => simp [found] at answer
      | some old =>
          by_cases same : old.sameContent x = true
          · exact .inr ⟨rfl, rfl, old, found, same⟩
          · simp [found, same] at answer

end Bundle

/-! ## Bundles and runs -/

namespace World

/-- **What is taken for each other.**  Take any operations on a bundle, and any run from an empty store, in which
all resources that are handed over have been built.  As long as the contents that are compared do not collide:

* two built resources count as one exactly when they are equal, or when one is a URL and the other has its text;
* an accepted addition leaves the resource under its name, unless the bundle has one in its disguise there; then
  the bundle stays as it is and answers that the resource is not new;
* an accepted deployment leaves every stored resource as it is, unless one in its disguise is deployed, which is
  there instead. -/
theorem taken_for_each_other (executor : Executor) (turns : List Turn) {job : String} {r : Record}
    (found : ((World.start executor).run turns).cluster.findRecord job = .ok r)
    (status : r.status = .registered ∨ r.status = .deployed)
    (shipped : ∀ s ∈ ((World.start executor).run turns).past, s.action.Brings fun _ x => x.Built)
    {σ : Type} (past : List (Bundle.Operation σ)) (outside : σ)
    (handed : ∀ o ∈ past, ∀ x ∈ o.handed, x.Built) :
    let c := ((World.start executor).run turns).cluster
    let b := (Bundle.Operation.reached past outside).1
    (∀ x y : Resource, x.Built → y.Built → ¬Sha256.Collide x.payload.content y.payload.content →
        (x.sameContent y = true ↔ x = y ∨ x.Disguises y))
    ∧ (∀ (x : Resource) new b', x.Built →
        (∀ old, b.find? x.name = some old → ¬Sha256.Collide old.payload.content x.payload.content) →
        b.add x = .ok (new, b') →
        b'.find? x.name = some x
          ∨ new = false ∧ b' = b ∧ ∃ old, b.find? x.name = some old ∧ old.Disguises x)
    ∧ (∀ (rs : List Resource) (now : UInt64) name old, (∀ x ∈ rs, x.Built) →
        ((Operation.deploy job rs now.toNat).run.run c).1 = .ok () →
        c.store.getResource job name = .ok (some old) →
        (∀ x ∈ rs, ¬Sha256.Collide old.payload.content x.payload.content) →
        ∃ kept, ((Operation.deploy job rs now.toNat).run.run c).2.store.getResource job name = .ok (some kept)
          ∧ (kept = old ∨ kept ∈ rs ∧ old.Disguises kept)) := by
  intro c b
  refine ⟨fun x y built built' apart => built.sameContent_iff built' apart,
    fun x new b' built apart added => ?_, fun rs now name old built accepted there apart => ?_⟩
  · rcases Bundle.add_cases added with ⟨-, own⟩ | ⟨rfl, rfl, old, stands, same⟩
    · exact .inl own
    obtain ⟨-, made⟩ := Bundle.Operation.holds_reached (fun _ => id) past handed outside x.name old stands
    rcases (made.sameContent_iff built (apart old stands)).mp same with rfl | guise
    · exact .inl stands
    · exact .inr ⟨rfl, rfl, old, stands, guise⟩
  · have admits : c.Admits job r := admits_of_run executor turns found status
    have stocked : c.store.Stocked fun _ x => x.Built := by
      have begins : (World.start executor).Stocks fun _ x => x.Built := fun _ => by
        simp [World.start, Cluster.ofStore, Store.empty, Store.Stocked]
      exact begins.run (Orderly.start executor) turns shipped
    obtain ⟨kept, stands, replaced⟩ := admits.replaces_old (admits.deploy_ok_iff.mp accepted) there
    refine ⟨kept, stands, ?_⟩
    rw [admits.labelled.getResource_eq, Except.ok.injEq] at there
    obtain ⟨-, made⟩ := stocked.of_held (Cluster.isName_of_findRecord found) there
    rcases replaced with unchanged | ⟨member, same⟩
    · exact .inl unchanged
    rcases (made.sameContent_iff (built kept member) (apart kept member)).mp same with rfl | guise
    · exact .inl rfl
    · exact .inr ⟨member, guise⟩

/-- The text of a URL as a library. -/
def textLibrary : Resource :=
  ⟨"lib", .code, .inline "http://h/lib".toUTF8.toList, Sha256.hexDigest "http://h/lib".toUTF8.toList⟩

/-- The library behind this URL. -/
def linkLibrary : Resource :=
  ⟨"lib", .code, .remote "http://h/lib", Sha256.hexDigest "http://h/lib".toUTF8.toList⟩

lemma textLibrary_made : Resource.inline "lib" .code "http://h/lib".toUTF8.toList = .ok textLibrary := by
  rw [Resource.inline, if_pos (show Resource.isName "lib" = true by decide)]
  rfl

lemma linkLibrary_made (files : FileTree) :
    Resource.fromLocator files "http://h/lib" (some "lib") .code = .ok linkLibrary := by
  have parsed : Locator.parse "http://h/lib" = .ok (.remote "http://h/lib".toList) := by decide
  have proper : Resource.isName ((some "lib").getD "lib") = true := by decide
  rw [Resource.fromLocator, parsed]
  simp only [bind, Except.bind, Resource.remote]
  rw [if_pos (show Resource.isName _ = true by decide)]
  rfl

lemma text_disguises_link : textLibrary.Disguises linkLibrary :=
  ⟨rfl, rfl, "http://h/lib", .inr ⟨rfl, rfl⟩⟩

/-- A bundle with the text of the URL. -/
lemma reached_textLibrary : Bundle.Operation.reached [.addCodeBytes "lib" "http://h/lib".toUTF8.toList] ()
    = (⟨Table.empty.insert "lib" textLibrary, false⟩, ()) := by
  have added : Bundle.empty.addCodeBytes "lib" "http://h/lib".toUTF8.toList
      = .ok (true, ⟨Table.empty.insert "lib" textLibrary, false⟩) := by
    rw [Bundle.addCodeBytes, textLibrary_made]
    rfl
  rw [Bundle.Operation.reached, List.foldl_cons, List.foldl_nil, Bundle.Operation.after, Bundle.Operation.perform,
    EStateM.run_map, Bundle.Edit.run_addCodeBytes, added]
  rfl

/-- **The library behind a URL** is no new one for a bundle that has the text of this URL under its name, and it
is put in the place of this text when it is deployed. -/
theorem link_is_taken_for_text :
    let b := (Bundle.Operation.reached [.addCodeBytes "lib" "http://h/lib".toUTF8.toList] ()).1
    let c := ((World.start acknowledge).run (life "a" textLibrary)).cluster
    (textLibrary.Built ∧ linkLibrary.Built ∧ textLibrary ≠ linkLibrary)
    ∧ textLibrary.sameContent linkLibrary = true
    ∧ (∃ b', b.add linkLibrary = .ok (false, b') ∧ b' = b
      ∧ ∃ old, b.find? "lib" = some old ∧ old.Disguises linkLibrary)
    ∧ c.store.getResource "a" "lib" = .ok (some textLibrary)
    ∧ ((Operation.deploy "a" [linkLibrary] (0 : UInt64).toNat).run.run c).1 = .ok ()
    ∧ ((Operation.deploy "a" [linkLibrary] (0 : UInt64).toNat).run.run c).2.store.getResource "a" "lib"
      = .ok (some linkLibrary) := by
  intro b c
  have made : textLibrary.Built := .inline textLibrary_made
  have made' : linkLibrary.Built := .located (linkLibrary_made ⟨[], [], []⟩)
  have different : textLibrary ≠ linkLibrary := by simp [textLibrary, linkLibrary]
  have apart : ¬Sha256.Collide textLibrary.payload.content linkLibrary.payload.content := fun h => h.1 rfl
  -- the bundle has the text
  have bundle : b = ⟨Table.empty.insert "lib" textLibrary, false⟩ := congrArg Prod.fst reached_textLibrary
  have stands : b.find? "lib" = some textLibrary := by rw [bundle]; rfl
  have added : b.add linkLibrary = .ok (false, b) := by
    simp [bundle, Bundle.add, Bundle.isNew, linkLibrary, textLibrary, Resource.sameContent]
    rfl
  -- and so has the store
  have valid : Job.isName "a" = true := by decide
  obtain ⟨run, -⟩ := run_life (World.start acknowledge) "a" textLibrary rfl valid rfl .blank
  have found : c.findRecord "a" = _ := (congrArg (fun w => w.cluster.findRecord "a") run).trans
    ((World.start acknowledge).findRecord_life valid textLibrary)
  have shipped : ∀ s ∈ ((World.start acknowledge).run (life "a" textLibrary)).past,
      s.action.Brings fun _ x => x.Built := by
    rw [run]
    simpa [World.start, perform, Cluster.steps, lifeSteps, Action.Brings] using made
  have stored : c.store.getResource "a" "lib" = .ok (some textLibrary) :=
    (congrArg (fun w => w.cluster.store.getResource "a" "lib") run).trans
      ((World.start acknowledge).getResource_life "a" textLibrary)
  have admits : c.Admits "a" _ := admits_of_run acknowledge _ found (.inr rfl)
  have same : textLibrary.sameContent linkLibrary = true := by simp [Resource.sameContent, linkLibrary, textLibrary]
  have fine : ∀ x ∈ [linkLibrary], c.store.clashes "a" x = false := by
    rw [admits.labelled.getResource_eq, Except.ok.injEq] at stored
    simpa [Store.clashes_eq_false, show linkLibrary.name = "lib" from rfl, stored] using same
  obtain ⟨identity, additions, -⟩ := taken_for_each_other acknowledge _ found (.inr rfl) shipped
    [.addCodeBytes "lib" "http://h/lib".toUTF8.toList] () (by simp [Bundle.Operation.handed])
  have taken : textLibrary.sameContent linkLibrary = true ↔ _ := identity _ _ made made' apart
  refine ⟨⟨made, made', different⟩, taken.mpr (.inr text_disguises_link), ⟨b, added, ?_⟩, stored,
    admits.deploy_ok_iff.mpr fine, ?_⟩
  · have only : ∀ old, b.find? linkLibrary.name = some old →
        ¬Sha256.Collide old.payload.content linkLibrary.payload.content := by
      intro old there
      rwa [← Option.some.inj (stands.symm.trans there)]
    rcases additions linkLibrary false b made' only added with own | ⟨-, -, guise⟩
    · exact absurd (Option.some.inj (stands.symm.trans own)) different
    · exact ⟨rfl, guise⟩
  · rw [admits.getResource_accepted fine]
    simp [Holdings.last, show linkLibrary.name = "lib" from rfl]

end World

end ControlPlane
