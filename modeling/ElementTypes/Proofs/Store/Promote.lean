import ElementTypes.Proofs.Heap.Equivalence
import ElementTypes.Proofs.Scalar.Cast
import ElementTypes.Proofs.Store.Codes
import ElementTypes.Proofs.Store.Reorder

/-! # What promotion finds

Descriptors that are not equivalent are promoted to a code and a size, which do not depend on their
order. All descriptors that are `Found` under these are equal.
-/

namespace ElementTypes

namespace Code

variable {a b : Code} (left : a.Proper) (right : b.Proper)
include left right

theorem later_comm : a.later b = b.later a := by
  unfold later
  rcases Nat.lt_trichotomy a.number b.number with less | same | more
  · rw [if_pos less, if_neg (Nat.lt_asymm less)]
  · rw [eq_of_number_eq left right same]
  · rw [if_pos more, if_neg (Nat.lt_asymm more)]

theorem common_comm : a.common b = b.common a := by
  have casts : (fun code => a.castsTo code && b.castsTo code) =
      fun code => b.castsTo code && a.castsTo code := funext fun _ => Bool.and_comm _ _
  rw [common, common, later_comm left right, casts]

end Code

namespace Descriptor

def goal (x y : Descriptor) : Code :=
  if (x.code.isObject ∧ y.code.isText) ∨ (y.code.isObject ∧ x.code.isText) then .object
  else x.code.common y.code

/-- The bytes that an element takes among elements of the code `goal`: a byte of a string becomes a
whole character. -/
def sizeAs (d : Descriptor) (goal : Code) : Size :=
  if goal = .unicode ∧ d.code = .string then d.size.mulSaturating Code.characterSize else d.size

theorem commonSize_eq (x y : Descriptor) : x.commonSize y (x.code.common y.code) =
    max (x.sizeAs (x.code.common y.code)) (y.sizeAs (x.code.common y.code)) := by
  unfold commonSize sizeAs
  by_cases text : x.code.common y.code = .unicode
  · have one := (Code.eq_unicode_of_common text).1
    rw [text]
    by_cases second : y.code = .string
    · have first : x.code ≠ .string := fun first => by simp [first, second] at one
      simp [first, second]
    · by_cases first : x.code = .string
      · have other : y.code = .unicode := one.resolve_left (by simp [first])
        simp [first, other]
      · simp [first, second]
  · have apart : ¬ (x.code = .string ∧ y.code = .unicode) := fun ⟨first, second⟩ =>
      text (by rw [first, second]; rfl)
    simp [text, apart]

def goalSize (x y : Descriptor) : Size := max (x.sizeAs (x.goal y)) (y.sizeAs (x.goal y))

section Symmetry

variable {x y : Descriptor} (left : x.code.Proper) (right : y.code.Proper)
include left right

theorem goal_comm : x.goal y = y.goal x :=
  if_congr or_comm rfl (Code.common_comm left right)

theorem goalSize_comm : x.goalSize y = y.goalSize x := by
  rw [goalSize, goalSize, goal_comm left right, Size.max_comm]

end Symmetry

section Congruence

variable {x x' y y' : Descriptor} (code : x.code = x'.code) (code' : y.code = y'.code)
include code code'

theorem goal_congr : x.goal y = x'.goal y' := by
  rw [goal, goal, code, code']

theorem goalSize_congr (size : x.size = x'.size) (size' : y.size = y'.size) :
    x.goalSize y = x'.goalSize y' := by
  rw [goalSize, goalSize, goal_congr code code', sizeAs, sizeAs, sizeAs, sizeAs, code, code', size,
    size']

end Congruence

end Descriptor

def promoteTo (code : Code) (size : Size) : Run Ref :=
  if code.isSizable then sharedOfSize code size else shared code

theorem promote_run {store : Store} {a b : Ref} (apart : store.heap.equivalent a b = false) :
    (promote a b).run store = (promoteTo ((store.heap.get a).goal (store.heap.get b))
      ((store.heap.get a).goalSize (store.heap.get b))).run store := by
  unfold promote
  rw [run_get_bind]
  simp only [apart, Bool.false_eq_true, if_false]
  rw [Descriptor.commonSize_eq]
  unfold Descriptor.goalSize Descriptor.goal promoteTo
  split
  · rfl
  · split <;> rfl

theorem promote_run_equivalent {store : Store} {a b : Ref}
    (same : store.heap.equivalent a b = true) : (promote a b).run store = (.ok b, store) := by
  unfold promote
  rw [run_get_bind]
  simp only [same, if_true]
  rfl

namespace Store

/-- What is found under a code and a size: the cell of a registered type, or a descriptor of a
built-in code that is canonical but for its companion and, where it may be chosen, its size. -/
inductive Found (store : Store) (code : Code) (size : Size) (ref : Ref) : Prop
  | plain (builtin : code.isBuiltin = true) (inside : ref < store.heap.size)
      (companion : Option String)
      (same : store.heap.get ref = { Descriptor.canonical code with
        size := if code.isSizable then size else code.size, companion })
  | registered (user : code.isBuiltin = false) (cell : store.cellOf? code = some ref)

theorem cellOf?_congr {store later : Store} (same : later.registry = store.registry) (code : Code) :
    later.cellOf? code = store.cellOf? code := by
  cases code with
  | user n => simp only [cellOf?, same]
  | _ => rfl

namespace Found

variable {store later : Store} {code : Code} {size : Size} {ref other : Ref}

theorem lead (found : store.Found code size ref) (after : store.Leads later) :
    later.Found code size ref := by
  cases found with
  | plain builtin inside companion same =>
      have grown := after.grows.heap
      exact .plain builtin (Nat.lt_of_lt_of_le inside grown.size) companion
        ((grown.get ref inside).trans same)
  | registered user cell =>
      exact .registered user ((cellOf?_congr after.grows.registry code).trans cell)

theorem equal (first : store.Found code size ref) (second : store.Found code size other) :
    store.heap.equal ref other = true := by
  cases first with
  | registered user cell =>
      cases second with
      | plain builtin => rw [user] at builtin; cases builtin
      | registered _ cell' =>
          obtain rfl := Option.some.inj (cell.symm.trans cell')
          exact Heap.equalWithin_self store.heap store.heap.depth ref
  | plain builtin _ companion same =>
      cases second with
      | registered user => rw [user] at builtin; cases builtin
      | plain _ _ companion' same' =>
          refine (Heap.equalWithin_succ ..).2 ?_
          rw [same, same']
          exact ⟨rfl, rfl, rfl, rfl, rfl, rfl, rfl, .none, .none, rfl⟩

theorem code_eq (coded : store.Coded) (found : store.Found code size ref) :
    (store.heap.get ref).code = code := by
  cases found with
  | plain _ _ companion same =>
      rw [same]
      rfl
  | registered user cell =>
      cases code with
      | user n => exact (coded.users n ref cell).2
      | _ => cases user

theorem size_eq (found : store.Found code size ref) (builtin : code.isBuiltin = true) :
    (store.heap.get ref).size = if code.isSizable then size else code.size := by
  cases found with
  | plain _ _ companion same => rw [same]
  | registered user => rw [builtin] at user; cases user

theorem isPlain (coded : store.Coded) (found : store.Found code size ref)
    (builtin : (store.heap.get ref).code.isBuiltin = true) :
    store.heap.isNative ref = true ∧ store.heap.get ref =
      { Descriptor.canonical (store.heap.get ref).code with
        size := (store.heap.get ref).size, companion := (store.heap.get ref).companion } := by
  rw [found.code_eq coded] at builtin
  cases found with
  | registered user => rw [builtin] at user; cases user
  | plain _ _ companion same =>
      refine ⟨?_, by rw [same]; rfl⟩
      rw [Heap.isNative, Heap.depth, Heap.nativeWithin, same]
      cases code <;> rfl

end Found

end Store

theorem shared_run_unknown {store : Store} {code : Code} (cell : store.cellOf? code = none) :
    (shared code).run store = (.error (.unknownCode code.number), store) := by
  unfold shared
  rw [run_get_bind, cell]
  rfl

theorem Code.isBuiltin_of_isSizable {code : Code} (sizable : code.isSizable = true) :
    code.isBuiltin = true := by
  cases code with
  | user n => cases sizable
  | _ => rfl

theorem promoteTo_unknown {store : Store} {code : Code} (cell : store.cellOf? code = none)
    (size : Size) :
    (promoteTo code size).run store = (.error (.unknownCode code.number), store) := by
  unfold promoteTo
  split
  · rename_i sizable
    rw [store.cellOf?_builtin (Code.isBuiltin_of_isSizable sizable)] at cell
    cases cell
  · exact shared_run_unknown cell

section Promotion

variable {store : Store} (sound : store.Sound)
include sound

theorem shared_found {code : Code} (fixed : code.isSizable = false) (size : Size) :
    Ensures Store.Leads (shared code) store fun ref t => t.Found code size ref := by
  cases cell : store.cellOf? code with
  | none => exact .of_run (shared_run_unknown cell) sound.leads fun _ none => nomatch none
  | some ref =>
      refine .of_run (shared_run cell) sound.leads ?_
      rintro _ ⟨⟩
      cases builtin : code.isBuiltin with
      | false => exact .registered builtin cell
      | true =>
          rw [store.cellOf?_builtin builtin] at cell
          obtain rfl := Option.some.inj cell
          refine .plain builtin (Nat.lt_of_lt_of_le (Code.number_lt builtin) sound.room) none ?_
          rw [sound.builtin code builtin, fixed]
          rfl

theorem sharedOfSize_found {code : Code} (sizable : code.isSizable = true) (size : Size) :
    Ensures Store.Leads (sharedOfSize code size) store fun ref t => t.Found code size ref := by
  have builtin := Code.isBuiltin_of_isSizable sizable
  have inside := Nat.lt_of_lt_of_le (Code.number_lt builtin) sound.room
  have shared : Ensures Store.Leads (shared code) store fun ref t =>
      ref = code.number ∧ t = store :=
    .of_run (shared_run (store.cellOf?_builtin builtin)) sound.leads
      fun _ same => ⟨(Except.ok.inj same).symm, rfl⟩
  refine shared.bind ?_
  rintro _ _ - ⟨rfl, rfl⟩
  refine .get_bind ?_
  rw [sound.builtin code builtin]
  split
  · rename_i fitting
    refine .pure sound.leads (.plain builtin inside none ?_)
    rw [sound.builtin code builtin, if_pos sizable, ← fitting]
    rfl
  · refine (duplicate_leads sound code.number).bind ?_
    rintro copy t after ⟨⟨companion, rfl⟩, -⟩
    rw [sound.builtin code builtin]
    have fits : Descriptor.Fits { Descriptor.canonical code with size, companion } t.heap :=
      fun _ link => nomatch link
    refine (adopt_leads after.sound fits).imp ?_
    rintro ref u - ⟨-, bound, content⟩
    refine .plain builtin bound companion (content.trans ?_)
    rw [if_pos sizable]

theorem promoteTo_found (code : Code) (size : Size) :
    Ensures Store.Leads (promoteTo code size) store fun ref t => t.Found code size ref := by
  unfold promoteTo
  split
  · rename_i sizable
    exact sharedOfSize_found sound sizable size
  · rename_i fixed
    exact shared_found sound (Bool.eq_false_of_not_eq_true fixed) size

end Promotion

theorem promoteTo_succeeds {store : Store} (ready : store.Ready) {code : Code} {ref : Ref}
    (cell : store.cellOf? code = some ref) (size : Size) :
    Succeeds (promoteTo code size) store fun _ t => t.Ready := by
  have shared : Succeeds (shared code) store fun _ t => t.Ready :=
    ⟨ref, store, shared_run cell, ready⟩
  unfold promoteTo
  split
  · refine shared.bind fun ref t ready => .get_bind ?_
    split
    · exact .pure ready
    · exact (duplicate_succeeds ready ref).bind fun copy u ready =>
        adopt_succeeds ready _
  · exact shared

namespace Store

structure Apart (store : Store) (code : Code) (size : Size) (pair : Ref × Ref) : Prop where
  left : pair.1 < store.heap.size
  right : pair.2 < store.heap.size
  apart : store.heap.equivalent pair.1 pair.2 = false
  code : (store.heap.get pair.1).goal (store.heap.get pair.2) = code
  size : (store.heap.get pair.1).goalSize (store.heap.get pair.2) = size

namespace Apart

variable {store later : Store} {code : Code} {size : Size} {a b : Ref}

theorem swap (coded : store.Coded) (apart : store.Apart code size (a, b)) :
    store.Apart code size (b, a) where
  left := apart.right
  right := apart.left
  apart := by
    refine Bool.eq_false_iff.2 fun same => ?_
    exact Bool.eq_false_iff.1 apart.apart (Heap.equivalentWithin_symm same)
  code := (Descriptor.goal_comm (coded.cells b) (coded.cells a)).trans apart.code
  size := (Descriptor.goalSize_comm (coded.cells b) (coded.cells a)).trans apart.size

theorem lead (sound : store.Sound) {pair : Ref × Ref} (apart : store.Apart code size pair)
    (after : store.Leads later) : later.Apart code size pair := by
  have grown := after.grows.heap
  have left := grown.get _ apart.left
  have right := grown.get _ apart.right
  exact {
    left := Nat.lt_of_lt_of_le apart.left grown.size
    right := Nat.lt_of_lt_of_le apart.right grown.size
    apart := (grown.equivalent_eq sound.closed sound.acyclic after.sound.closed after.sound.acyclic
      apart.left apart.right).trans apart.apart
    code := by rw [left, right, apart.code]
    size := by rw [left, right, apart.size] }

theorem replace (sound : store.Sound) {a' b' : Ref} (apart : store.Apart code size (a, b))
    (left : a' < store.heap.size) (right : b' < store.heap.size)
    (same : store.heap.equivalent a a' = true) (same' : store.heap.equivalent b b' = true) :
    store.Apart code size (a', b') := by
  have laws := store.heap.equivalent_equivalence
  obtain ⟨-, alike⟩ :=
    (Heap.equivalent_iff sound.closed sound.acyclic apart.left left).1 same
  obtain ⟨-, alike'⟩ :=
    (Heap.equivalent_iff sound.closed sound.acyclic apart.right right).1 same'
  exact {
    left
    right
    apart := by
      refine Bool.eq_false_iff.2 fun joined => ?_
      refine Bool.eq_false_iff.1 apart.apart ?_
      exact laws.trans same (laws.trans joined (laws.symm same'))
    code := (Descriptor.goal_congr alike.code alike'.code).symm.trans apart.code
    size := (Descriptor.goalSize_congr alike.code alike'.code alike.size alike'.size).symm.trans
      apart.size }

end Apart

end Store

def promoteAll (pairs : List (Ref × Ref)) : Run (List Ref) :=
  pairs.mapM fun pair => promote pair.1 pair.2

/-- That all promotions are refused because their common code is nobody's, or that each gives a
descriptor when they are made one after the other, and all of these agree. -/
inductive Store.PromotesAlike (store : Store) (agree : Heap → Ref → Ref → Bool)
    (pairs : List (Ref × Ref)) : Prop
  | refused (code : Code) (unknown : store.cellOf? code = none)
      (runs : ∀ pair ∈ pairs,
        (promote pair.1 pair.2).run store = (.error (.unknownCode code.number), store))
  | found (refs : List Ref) (later : Store)
      (ran : (promoteAll pairs).run store = (.ok refs, later)) (after : store.Leads later)
      (alike : ∀ x ∈ refs, ∀ y ∈ refs, agree later.heap x y = true)

section Promotions

variable {store : Store} (sound : store.Sound)

theorem promoteAll_equivalent {pairs : List (Ref × Ref)}
    (same : ∀ pair ∈ pairs, store.heap.equivalent pair.1 pair.2 = true) :
    (promoteAll pairs).run store = (.ok (pairs.map (·.2)), store) := by
  induction pairs with
  | nil => rfl
  | cons pair pairs ih =>
      have first := promote_run_equivalent (same pair (List.mem_cons_self ..))
      rw [promoteAll, List.mapM_cons, run_bind_ok _ _ _ first, ← promoteAll,
        run_bind_ok _ _ _ (ih fun other member => same other (List.mem_cons_of_mem _ member))]
      rfl

include sound

theorem promoteAll_succeeds (ready : store.Ready) {code : Code} {cell : Ref}
    (known : store.cellOf? code = some cell) {size : Size} {pairs : List (Ref × Ref)}
    (apart : ∀ pair ∈ pairs, store.Apart code size pair) :
    Succeeds (promoteAll pairs) store fun refs t =>
      store.Leads t ∧ ∀ ref ∈ refs, t.Found code size ref := by
  induction pairs generalizing store with
  | nil => exact .pure ⟨sound.leads, fun _ none => nomatch none⟩
  | cons pair pairs ih =>
      have here := apart pair (List.mem_cons_self ..)
      have first : Succeeds (promote pair.1 pair.2) store fun ref t =>
          store.Leads t ∧ t.Ready ∧ t.Found code size ref := by
        have ends := promote_run here.apart
        rw [here.code, here.size] at ends
        rw [Succeeds, ends]
        exact (promoteTo_succeeds ready known size).ensuring (promoteTo_found sound code size)
      rw [promoteAll, List.mapM_cons]
      refine first.bind ?_
      rintro ref t ⟨after, ready, found⟩
      -- in the store that this leads to the others are still apart and the code is still known
      have rest := fun other member => apart other (List.mem_cons_of_mem _ member)
      refine (ih after.sound ready ((Store.cellOf?_congr after.grows.registry code).trans known)
        fun other member => (rest other member).lead sound after).bind ?_
      rintro refs u ⟨after', all⟩
      refine .pure ⟨Onward.trans after after', fun other member => ?_⟩
      rcases List.mem_cons.1 member with rfl | member
      · exact found.lead after'
      · exact all other member

theorem promotesAlike_of_apart (ready : store.Ready) {code : Code} {size : Size}
    {pairs : List (Ref × Ref)} (apart : ∀ pair ∈ pairs, store.Apart code size pair) :
    store.PromotesAlike Heap.equal pairs := by
  cases known : store.cellOf? code with
  | none =>
      refine .refused code known fun pair member => ?_
      have here := apart pair member
      rw [promote_run here.apart, here.code]
      exact promoteTo_unknown known _
  | some cell =>
      obtain ⟨refs, t, ran, after, found⟩ := promoteAll_succeeds sound ready known apart
      exact .found refs t ran after fun x left y right => (found x left).equal (found y right)

variable {a b : Ref} (left : a < store.heap.size) (right : b < store.heap.size)

include left right in
theorem promotions_agree (coded : store.Coded) (ready : store.Ready) {a' b' : Ref}
    (left' : a' < store.heap.size) (right' : b' < store.heap.size)
    (same : store.heap.equivalent a a' = true) (same' : store.heap.equivalent b b' = true) :
    store.PromotesAlike Heap.equivalent [(a, b), (b, a), (a', b')] := by
  have laws := store.heap.equivalent_equivalence
  cases joined : store.heap.equivalent a b with
  | true =>
      have turned := laws.symm joined
      have replaced := laws.trans (laws.symm same) (laws.trans joined same')
      have all : ∀ x ∈ [b, a, b'], store.heap.equivalent a x = true := by
        simpa using ⟨joined, laws.refl a, laws.trans joined same'⟩
      refine .found [b, a, b'] store (promoteAll_equivalent ?_) sound.leads
        fun x first y second => ?_
      · simpa using ⟨joined, turned, replaced⟩
      · exact laws.trans (laws.symm (all x first)) (all y second)
  | false =>
      obtain ⟨code, size, apart⟩ : ∃ code size, store.Apart code size (a, b) :=
        ⟨_, _, left, right, joined, rfl, rfl⟩
      have all : ∀ pair ∈ [(a, b), (b, a), (a', b')], store.Apart code size pair := by
        simpa using ⟨apart, apart.swap coded, apart.replace sound left' right' same same'⟩
      have ends := promotesAlike_of_apart sound ready all
      cases ends with
      | refused code unknown runs => exact .refused code unknown runs
      | found refs t ran after alike =>
          exact .found refs t ran after fun x first y second =>
            Heap.equivalent_of_equal after.sound.closed after.sound.acyclic (alike x first y second)

include left right in
theorem promotions_determined (coded : store.Coded) (ready : store.Ready) {c d : Ref}
    (left' : c < store.heap.size) (right' : d < store.heap.size)
    (apart : store.heap.equivalent a b = false) (apart' : store.heap.equivalent c d = false)
    (code : (store.heap.get a).code = (store.heap.get c).code)
    (code' : (store.heap.get b).code = (store.heap.get d).code)
    (size : (store.heap.get a).size = (store.heap.get c).size)
    (size' : (store.heap.get b).size = (store.heap.get d).size) :
    store.PromotesAlike Heap.equal [(a, b), (b, a), (c, d)] := by
  have first : store.Apart _ _ (a, b) := ⟨left, right, apart, rfl, rfl⟩
  have other : store.Apart _ _ (c, d) := ⟨left', right', apart',
    (Descriptor.goal_congr code code').symm, (Descriptor.goalSize_congr code code' size size').symm⟩
  refine promotesAlike_of_apart sound ready (List.forall_mem_cons.2 ⟨first, ?_⟩)
  simpa using ⟨first.swap coded, other⟩

end Promotions

end ElementTypes
