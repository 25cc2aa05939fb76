import ElementTypes.Proofs.Store.Fold

/-! # Promotion absorbs -/

namespace ElementTypes

namespace Code

variable {a b c : Code}

theorem number_of_getElem?_builtin {n : Nat} (here : Code.builtin[n]? = some c) : c.number = n := by
  obtain ⟨bound, rfl⟩ := List.getElem?_eq_some_iff.1 here
  have table : ∀ i : Fin Code.builtin.length, (Code.builtin.get i).number = i := by decide
  exact table ⟨n, bound⟩

theorem le_number_of_mem_drop {n : Nat} (member : c ∈ Code.builtin.drop n) : n ≤ c.number := by
  obtain ⟨i, here⟩ := List.mem_iff_getElem?.1 member
  rw [List.getElem?_drop] at here
  rw [number_of_getElem?_builtin here]
  exact Nat.le_add_right n i

theorem drop_builtin (builtin : c.isBuiltin = true) :
    Code.builtin.drop c.number = c :: Code.builtin.drop (c.number + 1) := by
  obtain ⟨bound, here⟩ := List.getElem?_eq_some_iff.1 (getElem?_builtin builtin)
  rw [List.drop_eq_getElem_cons bound, here]

theorem later_of_number_le (above : a.number ≤ b.number) : a.later b = b :=
  if_neg (Nat.not_lt.2 above)

theorem common_of_castsTo (builtin : b.isBuiltin = true) (above : a.number ≤ b.number)
    (casts : a.castsTo b = true) : a.common b = b := by
  rw [common, later_of_number_le above, drop_builtin builtin, List.find?_cons_of_pos]
  · rfl
  · simp only [casts, castsTo_self, Bool.and_self]

theorem common_self (proper : a.Proper) : a.common a = a := by
  rcases proper with builtin | registered
  · exact common_of_castsTo builtin (Nat.le_refl _) (castsTo_self a)
  · have last := later_of_number_le (Nat.le_refl a.number)
    rw [common_of_registered (by rwa [last]), last]

theorem number_le_common (a b : Code) : a.number ≤ (a.common b).number := by
  have above := (number_le_later a b).1
  cases found : (Code.builtin.drop (a.later b).number).find? fun code =>
      a.castsTo code && b.castsTo code with
  | none =>
      rw [common, found]
      exact above
  | some code =>
      rw [common, found]
      exact Nat.le_trans above (le_number_of_mem_drop (List.mem_of_find?_eq_some found))

theorem common_absorb (left : a.Proper) : a.common (a.common b) = a.common b := by
  rcases common_eq_later_or a b with last | ⟨member, casts, -⟩
  · rw [last]
    rcases later_eq_or a b with same | same <;> rw [same]
    · exact common_self left
    · exact last.trans same
  · have builtin : ∀ code ∈ Code.builtin, code.isBuiltin = true := by decide
    exact common_of_castsTo (builtin _ member) (number_le_common a b) casts

end Code

namespace Descriptor

variable {x y z : Descriptor}

theorem goal_of_common
    (plain : ¬ ((x.code.isObject ∧ y.code.isText) ∨ (y.code.isObject ∧ x.code.isText))) :
    x.goal y = x.code.common y.code := if_neg plain

theorem goal_isText_of_isObject (object : x.code.isObject = true) :
    (x.goal y).isText = false := by
  unfold goal
  split
  · rfl
  · rename_i plain
    have code : x.code = .object := of_decide_eq_true object
    rcases Code.common_eq_later_or x.code y.code with last | ⟨member, casts, -⟩
    · rw [last]
      rcases Code.later_eq_or x.code y.code with same | same <;> rw [same]
      · rw [code]
        rfl
      · exact Bool.eq_false_of_not_eq_true fun text => plain (.inl ⟨object, text⟩)
    · have table : ∀ c ∈ Code.builtin, Code.object.castsTo c = true → c.isText = false := by decide
      exact table _ member (code ▸ casts)

theorem goal_absorb (left : x.code.Proper) (code : z.code = x.goal y) : x.goal z = z.code := by
  by_cases taken : (x.code.isObject ∧ z.code.isText) ∨ (z.code.isObject ∧ x.code.isText)
  · rcases taken with ⟨object, text⟩ | ⟨object, text⟩
    · rw [code, goal_isText_of_isObject object] at text
      cases text
    · rw [goal, if_pos (.inr ⟨object, text⟩), of_decide_eq_true object]
  · rw [goal_of_common taken]
    by_cases before : (x.code.isObject ∧ y.code.isText) ∨ (y.code.isObject ∧ x.code.isText)
    · have goal : z.code = .object := code.trans (if_pos before)
      have object : x.code = .object := by
        rcases before with ⟨object, -⟩ | ⟨-, text⟩
        · exact of_decide_eq_true object
        · exact absurd (.inr ⟨by rw [goal]; rfl, text⟩) taken
      rw [goal, object]
      rfl
    · rw [code, goal_of_common before]
      exact Code.common_absorb left

theorem sizeAs_self (d : Descriptor) : d.sizeAs d.code = d.size := by
  refine if_neg ?_
  rintro ⟨unicode, string⟩
  rw [unicode] at string
  cases string

theorem goalSize_absorb (left : x.code.Proper) (code : z.code = x.goal y)
    (size : z.size = x.goalSize y) : x.goalSize z = z.size := by
  have below : (x.sizeAs z.code).toNat ≤ z.size.toNat := by
    rw [size, goalSize, Size.toNat_max, ← code]
    exact Nat.le_max_left _ _
  rw [goalSize, goal_absorb left code, sizeAs_self]
  refine UInt64.toNat_inj.1 ?_
  rw [Size.toNat_max, Nat.max_eq_right below]

end Descriptor

namespace Store.Found

variable {store : Store} {code : Code} {size : Size} {ref : Ref}

theorem resize (found : store.Found code size ref) {size' : Size}
    (same : code.isSizable = true → size' = size) : store.Found code size' ref := by
  cases found with
  | registered user cell => exact .registered user cell
  | plain builtin inside companion content =>
      refine .plain builtin inside companion (content.trans ?_)
      cases sizable : code.isSizable with
      | true => rw [same sizable]
      | false => rfl

theorem absorbs (sound : store.Sound) (ready : store.Ready)
    (found : store.Found code size ref) (code' : (store.heap.get ref).code = code)
    (known : ∃ cell, store.cellOf? code = some cell) {m n : Ref}
    (apart : store.Apart code size (m, n)) (proper : (store.heap.get m).code.Proper) :
    Succeeds (promote m ref) store fun result t =>
      store.Leads t ∧ t.heap.equal result ref = true := by
  cases joined : store.heap.equivalent m ref with
  | true =>
      exact ⟨ref, store, promote_run_equivalent joined, sound.leads,
        Heap.equalWithin_self store.heap store.heap.depth ref⟩
  | false =>
      obtain ⟨cell, known⟩ := known
      have came := code'.trans apart.code.symm
      rw [Succeeds, promote_run joined, Descriptor.goal_absorb proper came, code']
      obtain ⟨result, t, ran, after, -, holds⟩ := (promoteTo_succeeds ready known _).ensuring
        (promoteTo_found sound code ((store.heap.get m).goalSize (store.heap.get ref)))
      refine ⟨result, t, ran, after, (holds.resize fun sizable => ?_).equal (found.lead after)⟩
      have chosen := found.size_eq (Code.isBuiltin_of_isSizable sizable)
      rw [if_pos sizable] at chosen
      rw [Descriptor.goalSize_absorb proper came (chosen.trans apart.size.symm), chosen]

end Store.Found

theorem Store.Leads.ready {store later : Store} (after : store.Leads later)
    (ready : store.Ready) : later.Ready where
  accepting hook installed := ready.accepting hook (after.grows.hook.symm.trans installed)
  ample := after.grows.ample ready.ample

section Runs

variable {store t : Store} (sound : store.Sound) (coded : store.Coded) {a b r : Ref}
  (ran : (promote a b).run store = (.ok r, t))
include sound coded ran

theorem found_of_promote {code : Code} {size : Size} (apart : store.Apart code size (a, b)) :
    store.Leads t ∧ t.Found code size r ∧ r < t.heap.size ∧ (t.heap.get r).code = code ∧
      ∃ cell, store.cellOf? code = some cell := by
  have same := promote_run apart.apart
  rw [apart.code, apart.size] at same
  have coded' : ((promote a b).run store).2.Coded := promote_coded sound coded a b
  rw [ran] at coded'
  obtain ⟨after, inside⟩ := (promote_leads sound (a := a) apart.right).of_ok ran
  obtain ⟨-, found⟩ := (promoteTo_found sound code size).of_ok (same.symm.trans ran)
  refine ⟨after, found, inside, found.code_eq coded', ?_⟩
  refine Option.ne_none_iff_exists'.1 fun none => ?_
  rw [promoteTo_unknown none, ran] at same
  cases same

theorem promote_absorbs (ready : store.Ready) (left : a < store.heap.size)
    (right : b < store.heap.size) {later : Store} (after : t.Leads later) : ∀ m ∈ [a, b],
    Succeeds (promote m r) later fun result last =>
      later.Leads last ∧ last.heap.equal result r = true := by
  cases joined : store.heap.equivalent a b with
  | true =>
      obtain ⟨same, rfl⟩ := Prod.mk.inj ((promote_run_equivalent joined).symm.trans ran)
      obtain rfl := Except.ok.inj same
      have kept := after.grows.heap.equivalent_eq sound.closed sound.acyclic after.sound.closed
        after.sound.acyclic left right
      have alike := later.heap.equivalent_equivalence.refl b
      have again : ∀ m ∈ [a, b], later.heap.equivalent m b = true := by
        simpa using ⟨kept.trans joined, alike⟩
      exact fun m member => ⟨b, later, promote_run_equivalent (again m member), after.sound.leads,
        Heap.equalWithin_self later.heap later.heap.depth b⟩
  | false =>
      obtain ⟨code, size, apart⟩ : ∃ code size, store.Apart code size (a, b) :=
        ⟨_, _, left, right, joined, rfl, rfl⟩
      obtain ⟨first, found, inside, code', known⟩ := found_of_promote sound coded ran apart
      have through : store.Leads later := Onward.trans first after
      rw [← Store.cellOf?_congr through.grows.registry] at known
      rw [← after.grows.heap.get r inside] at code'
      have again : ∀ m n, store.Apart code size (m, n) → Succeeds (promote m r) later
          fun result last => later.Leads last ∧ last.heap.equal result r = true := by
        intro m n pair
        have proper := coded.cells m
        rw [← through.grows.heap.get m pair.left] at proper
        exact (found.lead after).absorbs after.sound (through.ready ready) code' known
          (pair.lead sound through) proper
      simpa using ⟨again a b apart, again b a (apart.swap coded)⟩

end Runs

end ElementTypes
