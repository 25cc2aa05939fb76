import ElementTypes.Proofs.Store.Origins

/-! # Where intervals are -/

namespace ElementTypes

theorem Edit.interval_outcome {edit : Edit Ref Interval} {d d' : Descriptor} {value : EditValue}
    (h : edit.outcome d = .ok (value, d')) : d'.interval = d.interval ∨
      d.code.isTemporal = true ∧ d'.interval.isSome = true := by
  cases edit with
  | nothing | size | alignment | order | flags | subarray | fields | names | clear =>
      obtain ⟨-, rfl⟩ := Prod.mk.inj (Except.ok.inj h)
      exact .inl rfl
  | interval i =>
      simp only [outcome] at h
      split at h
      · rename_i temporal
        obtain ⟨-, rfl⟩ := Prod.mk.inj (Except.ok.inj h)
        exact .inr ⟨temporal, rfl⟩
      · cases h
  | put | retarget | erase | rekey =>
      unfold outcome at h
      rcases tableOutcome_eq_ok h with ⟨-, rfl⟩ | ⟨layout, table, -, -, rfl⟩ <;> exact .inl rfl
  | rename list =>
      rcases rename_eq_ok h with ⟨-, rfl⟩ | ⟨layout, table, -, -, rfl⟩ <;> exact .inl rfl

namespace Store

structure Times (store : Store) (d : Descriptor) : Prop where
  builtin : d.code.isBuiltin = true → d.interval.isSome = d.code.isTemporal
  registered : ∀ n, d.code = .user n → ∃ cell, store.cellOf? (.user n) = some cell ∧
    (store.heap.get cell).interval = d.interval

theorem Times.of_builtin {store : Store} {d : Descriptor} (builtin : d.code.isBuiltin = true)
    (same : d.interval.isSome = d.code.isTemporal) : store.Times d where
  builtin _ := same
  registered n code := by rw [code] at builtin; cases builtin

theorem Times.keep {store t : Store} {d : Descriptor} (times : store.Times d)
    (kept : ∀ n cell, store.cellOf? (.user n) = some cell → t.cellOf? (.user n) = some cell ∧
      (t.heap.get cell).interval = (store.heap.get cell).interval) : t.Times d where
  builtin := times.builtin
  registered n code := by
    obtain ⟨cell, found, same⟩ := times.registered n code
    obtain ⟨found', same'⟩ := kept n cell found
    exact ⟨cell, found', same'.trans same⟩

theorem Times.congr {store : Store} {d d' : Descriptor} (times : store.Times d)
    (code : d'.code = d.code) (interval : d'.interval = d.interval) : store.Times d' where
  builtin := by rw [code, interval]; exact times.builtin
  registered := by rw [code, interval]; exact times.registered

def Timed (store : Store) : Prop := ∀ ref, store.Times (store.heap.get ref)

theorem timed_initial : initial.Timed := by
  intro ref
  obtain ⟨code, builtin, canonical⟩ := exists_get_initial ref
  rw [canonical]
  exact .of_builtin builtin (Descriptor.isSome_interval_canonical code)

theorem cellOf?_entered_of_found {store : Store} (sound : store.Sound) {n : UInt16} {cell : Ref}
    (found : store.cellOf? (.user n) = some cell) (d : Descriptor) :
    (store.entered d).cellOf? (.user n) = some cell :=
  (Registry.find?_enter_of_ne _ _ (sound.numbered.ne_next found)).trans found

theorem Timed.act {limits : Limits} {store t : Store} (sound : store.Sound) (timed : store.Timed)
    (act : store.Act limits t) : t.Timed := by
  have known : ∀ {n cell}, store.cellOf? (.user n) = some cell → cell < store.heap.size :=
    fun found => sound.owned_lt _ (mem_owned_of_cellOf? found)
  cases act with
  | hooked => exact fun ref => (timed ref).keep fun _ _ found => ⟨found, rfl⟩
  | @adopted d _ made =>
      have keep : ∀ {x : Descriptor}, store.Times x →
          Times { store with heap := (store.heap.alloc d).2 } x := fun times =>
        times.keep fun _ _ found => ⟨found, by rw [Heap.get_alloc_of_lt d (known found)]⟩
      refine Heap.forall_get_alloc (fun ref => keep (timed ref)) (keep ?_)
      rcases made.timed with ⟨ref, code, interval⟩ | ⟨builtin, same⟩
      · exact (timed ref).congr code interval
      · exact .of_builtin builtin same
  | entered room ref companion =>
      refine Heap.forall_get_alloc (fun ref => (timed ref).keep fun n cell found => ?_) ?_
      · exact ⟨cellOf?_entered_of_found sound found _, by
          rw [entered, Heap.get_alloc_of_lt _ (known found)]⟩
      · refine ⟨fun builtin => absurd builtin Bool.false_ne_true, fun n code => ?_⟩
        obtain rfl := Code.user.inj code
        refine ⟨store.heap.size, Registry.find?_enter_self .., ?_⟩
        rw [entered, Heap.get_alloc_self]
  | @flagged heap flagged =>
      intro ref
      have here : store.Times (heap.get ref) :=
        (timed ref).congr (flagged.kept ref).code (flagged.kept ref).interval
      exact here.keep fun n cell found => ⟨found, (flagged.kept cell).interval⟩
  | @edited cell edit value d inside own allowed applied =>
      have keep : ∀ {x : Descriptor}, store.Times x →
          Times { store with heap := store.heap.set cell d } x := fun times =>
        times.keep fun n other found => by
          have apart : other ≠ cell := fun same => own (same ▸ mem_owned_of_cellOf? found)
          exact ⟨found, by rw [Heap.get_set_of_ne _ _ apart]⟩
      refine Heap.forall_get_set (fun ref => keep (timed ref)) (keep ?_)
      have code := Edit.code_outcome applied
      rcases Edit.interval_outcome applied with same | ⟨temporal, given⟩
      · exact (timed cell).congr code same
      · refine .of_builtin ?_ ?_
        · rw [code]
          cases old : (store.heap.get cell).code <;>
            first | rfl | (rw [old] at temporal; cases temporal)
        · rw [code, given, temporal]

theorem Timed.consistent_iff {store : Store} (timed : store.Timed) (coded : store.Coded) :
    (∀ n cell, store.cellOf? (.user n) = some cell → (store.heap.get cell).interval = none) ↔
      ∀ ref, (store.heap.get ref).interval.isSome = (store.heap.get ref).code.isTemporal := by
  constructor
  · intro plain ref
    cases code : (store.heap.get ref).code with
    | user n =>
        obtain ⟨cell, found, same⟩ := (timed ref).registered n code
        rw [← same, plain n cell found]
        rfl
    | _ =>
        rw [← code]
        exact (timed ref).builtin (by rw [code]; rfl)
  · intro all n cell found
    have plain := all cell
    rw [(coded.users n cell found).2] at plain
    exact Option.not_isSome_iff_eq_none.1 (Bool.eq_false_iff.1 plain)

end Store

theorem register_interval {store t : Store} {d : Descriptor} {code : Code}
    (h : (register d).run store = (.ok code, t)) : ∃ cell, t.cellOf? code = some cell ∧
      (t.heap.get cell).code = code ∧ (t.heap.get cell).interval = d.interval := by
  obtain ⟨n, cell, -, found, content⟩ := register_found h
  refine ⟨cell, found, ?_, ?_⟩ <;> rw [content]

end ElementTypes
