import ElementTypes.Proofs.Heap.Equivalence
import ElementTypes.Proofs.Store.Sound
import ElementTypes.Proofs.Text.TypeText
import ElementTypes.Store.Read

/-! # Reading a descriptor back -/

namespace ElementTypes

def readCell (text : String) : Run Ref := do adopt (← readType text)

section Bare

variable {store : Store} (sound : store.Sound) (bare : store.hook = none)
include sound bare

theorem fresh_run {code : Code} (builtin : code.isBuiltin = true) :
    (fresh code).run store = (.ok (.canonical code), store) := by
  rw [fresh_run_offerCopy sound builtin, offerCopy, run_get_bind, sound.builtin code builtin]
  simp only [bare]
  rfl

theorem readType_run (text : String) : (readType text).run store = (described text, store) := by
  unfold readType described
  cases read : TypeText.read? text with
  | none => rfl
  | some said =>
      obtain ⟨-, kind, size, -, found⟩ := TypeText.shaped_of_read? read
      have builtin := (TypeText.sized?_eq_some found).1
      simp only
      rw [run_bind_ok _ _ _ (fresh_run sound bare builtin), TypeText.interval]
      cases said.scale with
      | none => rfl
      | some scale =>
          simp only
          split
          · cases Interval.parse (String.ofList scale) <;> rfl
          · rfl

/-- Reading a text changes nothing. It gives a descriptor if and only if the text follows the
grammar. The whole text is refused otherwise, unless it is the interval in its brackets that is. -/
structure Store.Judges (store : Store) (text : String) : Prop where
  accepts : (∃ d, (readType text).run store = (.ok d, store)) ↔ TypeText.Accepted text.toList
  refuses : ¬ TypeText.Accepted text.toList → ∃ e, (readType text).run store = (.error e, store) ∧
    (TypeText.Bracketed text.toList → e.kind = .value) ∧
    (¬ TypeText.Bracketed text.toList → e = .malformedTypeText text)

theorem judges (text : String) : store.Judges text := by
  have run := readType_run sound bare text
  constructor
  · rw [run, ← described_succeeds_iff]
    constructor
    · rintro ⟨d, same⟩
      exact ⟨d, (Prod.mk.inj same).1⟩
    · rintro ⟨d, asked⟩
      exact ⟨d, by rw [asked]⟩
  · intro malformed
    cases asked : described text with
    | ok d => exact absurd (accepted_of_described asked) malformed
    | error e => exact ⟨e, by rw [run, asked], described_refused asked⟩

theorem readCell_eq_ok {text : String} {a : Ref} {t : Store} :
    (readCell text).run store = (.ok a, t) ↔
      ∃ d, described text = .ok d ∧ (adopt d).run store = (.ok a, t) := by
  unfold readCell
  rw [run_bind_eq_ok]
  constructor
  · rintro ⟨d, s, read, adopted⟩
    rw [readType_run sound bare] at read
    obtain ⟨asked, rfl⟩ := Prod.mk.inj read
    exact ⟨d, asked, adopted⟩
  · rintro ⟨d, asked, adopted⟩
    exact ⟨d, store, by rw [readType_run sound bare, asked], adopted⟩

end Bare

structure ReadsBack (heap : Heap) (a b : Ref) : Prop where
  content : heap.get b = { heap.get a with order := (heap.get a).order.resolve }
  equivalent : heap.equivalent a b = true
  equal : (heap.get a).order ≠ .native → heap.equal a b = true
  text : (heap.get b).text = (heap.get a).text

theorem Heap.equal_of_get_eq {heap : Heap} {a b : Ref} (same : heap.get a = heap.get b) :
    heap.equal a b = true := by
  rw [equal, depth, equalWithin_succ, same]
  exact .refl (equalWithin_self heap heap.size) _

namespace Wording

variable {w : Wording}

theorem fits (w : Wording) (heap : Heap) : w.descriptor.Fits heap := fun _ link => nomatch link

theorem isLeaf (w : Wording) : w.descriptor.IsLeaf := ⟨rfl, rfl⟩

theorem isNative_eq {heap : Heap} {a : Ref} (here : heap.get a = w.descriptor) :
    heap.isNative a = w.order.isNative := by
  rw [Heap.isNative_of_leaf (here ▸ w.isLeaf), here]
  rfl

theorem readsBack {heap : Heap} (closed : heap.Closed) (acyclic : heap.Acyclic) {a b : Ref}
    (left : a < heap.size) (right : b < heap.size) (here : heap.get a = w.descriptor)
    (there : heap.get b = w.respell.descriptor) : ReadsBack heap a b where
  content := by rw [here, there, descriptor_respell]
  equivalent := by
    rw [Heap.equivalent_iff closed acyclic left right, isNative_eq here, isNative_eq there, here,
      there]
    exact ⟨w.order.isNative_resolve.symm, rfl, rfl, .none, .none, rfl⟩
  equal spelled := by
    apply Heap.equal_of_get_eq
    rw [here] at spelled
    rw [here, there, descriptor_respell, ByteOrder.resolve_of_ne_native spelled]
  text := by rw [here, there, text_respell]

end Wording

theorem readCell_worded {store t : Store} (sound : store.Sound) (bare : store.hook = none)
    {text : String} {a : Ref} (ran : (readCell text).run store = (.ok a, t)) :
    ∃ w : Wording, store.Leads t ∧ a < t.heap.size ∧ t.heap.get a = w.descriptor := by
  obtain ⟨d, asked, adopted⟩ := (readCell_eq_ok sound bare).1 ran
  obtain ⟨w, rfl⟩ := described_eq_ok asked
  obtain ⟨after, value⟩ := adopt_leads sound (w.fits store.heap)
  rw [adopted] at after value
  obtain ⟨-, inside, here⟩ := value a rfl
  exact ⟨w, after, inside, here⟩

theorem readCell_readsBack {store t : Store} (sound : store.Sound) (bare : store.hook = none)
    {text : String} {a : Ref} (ran : (readCell text).run store = (.ok a, t)) :
    ∃ b u, (readCell (t.heap.get a).text).run t = (.ok b, u) ∧ t.heap.Extends u.heap ∧
      ReadsBack u.heap a b := by
  obtain ⟨w, after, inside, here⟩ := readCell_worded sound bare ran
  have again : described (t.heap.get a).text = .ok w.respell.descriptor := by
    rw [here, w.described_text]
  have bare' : t.hook = none := after.grows.hook.trans bare
  have adopts : Succeeds (adopt w.respell.descriptor) t fun _ _ => True := ⟨_, _, rfl, trivial⟩
  obtain ⟨b, u, adopted', later, -, -, inside', there⟩ :=
    adopts.ensuring (adopt_leads after.sound (w.respell.fits t.heap))
  refine ⟨b, u, (readCell_eq_ok after.sound bare').2 ⟨_, again, adopted'⟩, later.grows.heap, ?_⟩
  have here' : u.heap.get a = w.descriptor := (later.grows.heap.get a inside).trans here
  exact w.readsBack later.sound.closed later.sound.acyclic
    (Nat.lt_of_lt_of_le inside later.grows.heap.size) inside' here' there

end ElementTypes
