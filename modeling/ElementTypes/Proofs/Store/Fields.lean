import ElementTypes.Proofs.Heap.Native
import ElementTypes.Proofs.Record.Slots
import ElementTypes.Proofs.Store.Acts

/-! # What fields are realized by -/

namespace ElementTypes

theorem Subarray.count_eq_prod (subarray : Subarray) :
    subarray.count = (subarray.shape.map (·.toNat)).prod := by
  rw [count, List.prod_eq_foldl, List.foldl_map]

def FieldType.element (store : Store) : FieldType Ref → Descriptor
  | .scalar code => ((store.cellOf? code).map store.heap.get).getD (.canonical code)
  | .string bytes => { Descriptor.canonical .string with size := bytes }
  | .unicode characters =>
    { Descriptor.canonical .unicode with size := characters.mulSaturating Code.characterSize }
  | .existing ref => store.heap.get ref

def FieldType.Known (store : Store) : FieldType Ref → Prop
  | .scalar code => ∃ cell, store.cellOf? code = some cell
  | _ => True

theorem FieldType.Known.lead {type : FieldType Ref} {store later : Store}
    (known : type.Known store) (after : store.Leads later) : type.Known later := by
  cases type with
  | scalar code =>
      rw [Known, Store.cellOf?_congr after.grows.registry]
      exact known
  | _ => trivial

theorem FieldType.element_scalar {store : Store} {code : Code} {cell : Ref}
    (known : store.cellOf? code = some cell) :
    (FieldType.scalar code).element store = store.heap.get cell := by
  rw [element, known]
  rfl

theorem FieldType.element_fits {store : Store} (closed : store.heap.Closed)
    (type : FieldType Ref) : (type.element store).Fits store.heap := by
  cases type with
  | scalar code =>
      cases known : store.cellOf? code with
      | none =>
          rw [element, known]
          exact fun _ link => nomatch link
      | some cell =>
          rw [element_scalar known]
          exact closed.fits cell
  | string | unicode =>
      rw [element]
      exact fun _ link => nomatch link
  | existing ref => exact closed.fits ref

def Descriptor.array (element : Descriptor) (subarray : Subarray) (size : Size) : Descriptor :=
  { Descriptor.canonical .void with
    size, alignment := element.alignment, flags := element.flags, subarray := some subarray }

namespace Heap

variable {heap : Heap}

theorem bears_companion {d : Descriptor} (companion : Option String) :
    heap.Bears { d with companion } ↔ heap.Bears d :=
  have same : d.SameShape { d with companion } := ⟨.rfl, rfl, rfl, rfl, rfl⟩
  ⟨bears_of_sameShape (fun _ => .refl _) same.symm, bears_of_sameShape (fun _ => .refl _) same⟩

theorem bears_array (subarray : Subarray) (size : Size) :
    heap.Bears ((heap.get subarray.base).array subarray size) ↔
      heap.Bears (heap.get subarray.base) := by
  constructor
  · intro bears
    cases bears with
    | marked marks =>
        have counted : (heap.get subarray.base).flags.holdsObjects = true := by
          simpa [Descriptor.marksObjects, Descriptor.array, Descriptor.canonical, Code.kind]
            using marks
        exact .marked (by simp [Descriptor.marksObjects, counted])
    | @through _ ref link bears =>
        obtain rfl : ref = subarray.base := List.mem_singleton.1 link
        exact bears
  · exact .through (List.mem_singleton.2 rfl)

end Heap

namespace FieldPlan

def count (plan : FieldPlan Ref) : Nat := (plan.shape.map (·.toNat)).prod

def size (plan : FieldPlan Ref) (store : Store) : Nat :=
  (plan.type.element store).size.toNat * plan.count

/-- The cell has the size and the alignment of what the field holds, and the same objects. -/
structure Realizes (plan : FieldPlan Ref) (store : Store) (heap : Heap) (target : Ref) : Prop where
  inside : target < heap.size
  size : (heap.get target).size.toNat = plan.size store
  alignment : (heap.get target).alignment = (plan.type.element store).alignment
  bears : heap.Bears (heap.get target) ↔ store.heap.Bears (plan.type.element store)

namespace Realizes

variable {plan : FieldPlan Ref} {store : Store} {heap later : Heap} {target : Ref}
  (realizes : plan.Realizes store heap target)
include realizes

theorem extend (grown : heap.Extends later) (closed : heap.Closed) :
    plan.Realizes store later target := by
  have same := grown.get target realizes.inside
  refine ⟨Nat.lt_of_lt_of_le realizes.inside grown.size, ?_, ?_, ?_⟩ <;> rw [same]
  · exact realizes.size
  · exact realizes.alignment
  · exact (grown.bears_iff closed (closed.fits target)).trans realizes.bears

theorem flag (flagged : heap.Flagged later) : plan.Realizes store later target := by
  obtain ⟨flags, same⟩ := (flagged.kept target).exists_flags
  refine ⟨?_, ?_, ?_, (flagged.bears_get_iff target).trans realizes.bears⟩
  · rw [flagged.size]
    exact realizes.inside
  · rw [same]
    exact realizes.size
  · rw [same]
    exact realizes.alignment

end Realizes

end FieldPlan

section Makes

variable {store : Store} (sound : store.Sound)
include sound

theorem fresh_makes {code : Code} (builtin : code.isBuiltin = true) :
    Ensures Store.Leads (fresh code) store fun d t =>
      (∃ companion, d = { Descriptor.canonical code with companion }) ∧ t.heap = store.heap :=
  ((fresh_leads sound code).also (@fresh_acts .any store sound code builtin)).imp
    fun _ _ _ holds => holds.2.1

theorem sizedText_makes {code : Code} (builtin : code.isBuiltin = true) (size : Size) :
    Ensures Store.Leads (sizedText code size) store fun ref t => ref < t.heap.size ∧
      ∃ companion, t.heap.get ref = { Descriptor.canonical code with size, companion } := by
  refine (fresh_makes sound builtin).bind ?_
  rintro d t after ⟨⟨companion, rfl⟩, -⟩
  refine (adopt_leads after.sound ?_).imp ?_
  · exact fun _ link => nomatch link
  · rintro ref u - ⟨-, inside, content⟩
    exact ⟨inside, companion, content⟩

theorem arrayOf_makes {base : Ref} (inside : base < store.heap.size) (shape : List Size) :
    Ensures Store.Leads (arrayOf base shape) store fun ref t => ref < t.heap.size ∧
      ∃ size companion,
        size.toNat = (store.heap.get base).size.toNat * (shape.map (·.toNat)).prod ∧
        t.heap.get ref = { (store.heap.get base).array ⟨base, shape⟩ size with companion } := by
  refine .get_bind ?_
  dsimp only
  split
  · rename_i size total
    rw [Subarray.count_eq_prod] at total
    refine (fresh_makes sound rfl).bind ?_
    rintro d t after ⟨⟨companion, rfl⟩, -⟩
    refine (adopt_leads after.sound fun ref link => ?_).imp ?_
    · obtain rfl : ref = base := List.mem_singleton.1 link
      exact Nat.lt_of_lt_of_le inside after.grows.heap.size
    · rintro ref u - ⟨-, inside, content⟩
      exact ⟨inside, size, companion, Size.ofNat?_eq_some.1 total, content⟩
  · exact .throw sound.leads

end Makes

section Realizing

variable {store t : Store} (sound : store.Sound) (after : store.Leads t) {plan : FieldPlan Ref}
  (fits : plan.Fits store.heap)
include sound after fits

theorem element_makes : Ensures Store.Leads plan.type.realize t fun ref u => ref < u.heap.size ∧
    plan.type.Known store ∧
    ∃ companion, u.heap.get ref = { plan.type.element store with companion } := by
  unfold FieldPlan.Fits at fits
  generalize plan.type = type at *
  unfold FieldType.realize
  cases type with
  | scalar code =>
      refine ((shared_leads after.sound code).also (@shared_acts .any t code)).imp ?_
      rintro ref u - ⟨⟨inside, rfl⟩, ⟨-, cell⟩, -⟩
      rw [Store.cellOf?_congr after.grows.registry] at cell
      refine ⟨inside, ⟨ref, cell⟩, (store.heap.get ref).companion, ?_⟩
      rw [FieldType.element_scalar cell]
      exact after.grows.heap.get ref (sound.owned_lt ref (Store.mem_owned_of_cellOf? cell))
  | string | unicode =>
      exact (sizedText_makes after.sound rfl _).imp fun _ _ _ holds => ⟨holds.1, trivial, holds.2⟩
  | existing ref =>
      have inside := fits ref rfl
      refine .pure after.sound.leads ⟨Nat.lt_of_lt_of_le inside after.grows.heap.size, trivial,
        (store.heap.get ref).companion, ?_⟩
      exact after.grows.heap.get ref inside

theorem realize_realizes : Ensures Store.Leads plan.realize t fun target u =>
    plan.type.Known store ∧ plan.Realizes store u.heap target := by
  unfold FieldPlan.realize
  refine (element_makes sound after fits).bind ?_
  rintro ref u next ⟨inside, known, companion, same⟩
  have grown := (Onward.trans after next).grows.heap
  have bears : u.heap.Bears (u.heap.get ref) ↔ store.heap.Bears (plan.type.element store) := by
    rw [same, Heap.bears_companion]
    exact grown.bears_iff sound.closed (plan.type.element_fits sound.closed)
  split
  · rename_i single
    refine .pure next.sound.leads ⟨known, inside, ?_, by rw [same], bears⟩
    rw [same, FieldPlan.size, FieldPlan.count, single]
    exact (Nat.mul_one _).symm
  · refine (arrayOf_makes next.sound inside plan.shape).imp ?_
    rintro target v later ⟨inside', size, companion', total, content⟩
    rw [same] at total
    refine ⟨known, inside', ?_, ?_, ?_⟩ <;> rw [content]
    · exact total
    · exact (congrArg Descriptor.alignment same :)
    · have kept := later.grows.heap.get ref inside
      rw [Heap.bears_companion, ← kept]
      rw [Heap.bears_array ⟨ref, plan.shape⟩ size, kept]
      exact (later.grows.heap.bears_iff next.sound.closed (next.sound.closed.fits ref)).trans bears

end Realizing

section Success

variable {store t : Store} (ready : t.Ready)
include ready

theorem fresh_succeeds {code : Code} (builtin : code.isBuiltin = true) :
    Succeeds (fresh code) t fun _ u => u.Ready := by
  have shared : Succeeds (shared code) t fun _ u => u.Ready :=
    ⟨_, t, shared_run (t.cellOf?_builtin builtin), ready⟩
  exact shared.bind fun ref _ ready => duplicate_succeeds ready ref

theorem sizedText_succeeds {code : Code} (builtin : code.isBuiltin = true) (size : Size) :
    Succeeds (sizedText code size) t fun _ u => u.Ready :=
  (fresh_succeeds ready builtin).bind fun _ _ ready => adopt_succeeds ready _

theorem element_succeeds {type : FieldType Ref} (known : type.Known t) :
    Succeeds type.realize t fun _ u => u.Ready := by
  unfold FieldType.realize
  cases type with
  | scalar code =>
      obtain ⟨cell, known⟩ := known
      exact ⟨cell, t, shared_run known, ready⟩
  | string bytes => exact sizedText_succeeds ready rfl bytes
  | unicode characters => exact sizedText_succeeds ready rfl _
  | existing ref => exact .pure ready

theorem arrayOf_succeeds {base : Ref} {shape : List Size}
    (small : (t.heap.get base).size.toNat * (shape.map (·.toNat)).prod < UInt64.size) :
    Succeeds (arrayOf base shape) t fun _ u => u.Ready := by
  obtain ⟨size, total⟩ := Option.isSome_iff_exists.1 (Size.ofNat?_isSome.2 small)
  have counted := Subarray.count_eq_prod ⟨base, shape⟩
  unfold arrayOf
  refine .get_bind ?_
  dsimp only
  rw [counted, total]
  exact (fresh_succeeds ready rfl).bind fun _ _ ready => adopt_succeeds ready _

theorem realize_succeeds (sound : store.Sound) (after : store.Leads t) {plan : FieldPlan Ref}
    (fits : plan.Fits store.heap) (known : plan.type.Known store)
    (small : plan.size store < UInt64.size) :
    Succeeds plan.realize t fun _ u => u.Ready := by
  have known' := known.lead after
  unfold FieldPlan.realize
  refine ((element_succeeds ready known').ensuring (element_makes sound after fits)).bind ?_
  rintro ref u ⟨-, ready, -, -, companion, same⟩
  split
  · exact .pure ready
  · refine arrayOf_succeeds ready ?_
    rw [same]
    exact small

end Success

end ElementTypes
