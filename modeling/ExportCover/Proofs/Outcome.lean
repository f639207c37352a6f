import Mathlib.Data.List.Basic
import Mathlib.Data.List.Perm.Basic
import Mathlib.Data.List.ReduceOption
import ExportCover.Fault

/-!
# Outcomes

An outcome is a value or a fault. Sequences of outcomes are taken apart and put together with the
lemmas here, without unfolding how they are built.
-/

namespace ExportCover.Outcome

variable {α β : Type}

/-- After a success comes the next step. -/
@[simp]
lemma ok_bind (a : α) (next : α → Except Fault β) : (Except.ok a >>= next) = next a :=
  rfl

/-- A fault ends a sequence. -/
@[simp]
lemma error_bind (fault : Fault) (next : α → Except Fault β) :
    (Except.error fault >>= next) = Except.error fault :=
  rfl

/-- A value by itself is a success. -/
@[simp]
lemma pure_eq (a : α) : (pure a : Except Fault α) = Except.ok a :=
  rfl

/-- A sequence that succeeds succeeds at its first step. -/
lemma bind_eq_ok {outcome : Except Fault α} {next : α → Except Fault β} {b : β} :
    outcome >>= next = .ok b ↔ ∃ a, outcome = .ok a ∧ next a = .ok b := by
  cases outcome with
  | error fault => simp
  | ok a => simp

/-- A sequence that fails fails at its first step or after it. -/
lemma bind_eq_error {outcome : Except Fault α} {next : α → Except Fault β} {fault : Fault} :
    outcome >>= next = .error fault ↔
      outcome = .error fault ∨ ∃ a, outcome = .ok a ∧ next a = .error fault := by
  cases outcome with
  | error fault' => simp
  | ok a => simp

/-- Two sequences have one first step, and one of them fails: the other one ends or fails in the same
way if it does so after that step. -/
lemma bind_ends_or_fails (ends : Except Fault β → Prop) {outcome : Except Fault α}
    {next next' : α → Except Fault β} {fault : Fault} (failed : outcome >>= next = .error fault)
    (rest : ∀ a, outcome = .ok a → next a = .error fault →
      ends (next' a) ∨ next' a = .error fault) :
    ends (outcome >>= next') ∨ outcome >>= next' = .error fault := by
  cases outcome with
  | error fault' =>
    rw [error_bind] at failed
    exact .inr (by rw [error_bind, failed])
  | ok a => exact rest a rfl failed

/-- A value in another form comes from a value. -/
lemma map_eq_ok {ε : Type} {outcome : Except ε α} {f : α → β} {b : β} :
    f <$> outcome = .ok b ↔ ∃ a, outcome = .ok a ∧ f a = b := by
  cases outcome with
  | error error => simp [Functor.map, Except.map]
  | ok a => simp [Functor.map, Except.map]

/-- A fault stays the same whatever is done with the value. -/
lemma map_eq_error {outcome : Except Fault α} {f : α → β} {fault : Fault} :
    f <$> outcome = .error fault ↔ outcome = .error fault := by
  cases outcome with
  | error fault' => simp [Functor.map, Except.map]
  | ok a => simp [Functor.map, Except.map]

/-- A success is what is left without the faults. -/
lemma toOption_eq_some {outcome : Except Fault α} {a : α} :
    outcome.toOption = some a ↔ outcome = .ok a := by
  cases outcome with
  | error fault => simp [Except.toOption]
  | ok a => simp [Except.toOption]

/-- A sequence whose steps all succeed succeeds. -/
lemma exists_bind {outcome : Except Fault α} {next : α → Except Fault β}
    (first : ∃ a, outcome = .ok a) (rest : ∀ a, ∃ b, next a = .ok b) :
    ∃ b, outcome >>= next = .ok b := by
  obtain ⟨a, rfl⟩ := first
  exact rest a

/-- Outcomes in a row succeed if and only if all of them do, with their values in a row. -/
lemma mapM_eq_ok {f : α → Except Fault β} {as : List α} {bs : List β} :
    as.mapM f = .ok bs ↔ as.map f = bs.map .ok := by
  induction as generalizing bs with
  | nil => simp [eq_comm]
  | cons a rest ih =>
    rw [List.mapM_cons, bind_eq_ok, List.map_cons]
    simp only [bind_eq_ok, ih, pure_eq, Except.ok.injEq]
    constructor
    · rintro ⟨b, here, bs', there, rfl⟩
      rw [List.map_cons, here, there]
    · intro same
      obtain ⟨b, bs', rfl, here, there⟩ := List.map_eq_cons_iff.mp same.symm
      exact ⟨b, here.symm, bs', there.symm, rfl⟩

/-- The values of outcomes in a row are the values of the single outcomes. -/
lemma mem_of_mapM_eq_ok {f : α → Except Fault β} {as : List α} {bs : List β}
    (all : as.mapM f = .ok bs) (b : β) : b ∈ bs ↔ ∃ a ∈ as, f a = .ok b := by
  rw [← List.mem_map, mapM_eq_ok.mp all, List.mem_map]
  simp

/-- Outcomes in a row succeed only if each of them does. -/
lemma exists_of_mapM_eq_ok {f : α → Except Fault β} {as : List α} {bs : List β}
    (all : as.mapM f = .ok bs) {a : α} (mem : a ∈ as) : ∃ b, f a = .ok b := by
  have listed := List.mem_map_of_mem (f := f) mem
  rw [mapM_eq_ok.mp all] at listed
  obtain ⟨b, _, same⟩ := List.mem_map.mp listed
  exact ⟨b, same.symm⟩

/-- Outcomes with known values have these values in a row. -/
lemma mapM_eq_ok_map {f : α → Except Fault β} {g : α → β} {as : List α}
    (known : ∀ a ∈ as, f a = .ok (g a)) : as.mapM f = .ok (as.map g) := by
  rw [mapM_eq_ok, List.map_map]
  exact List.map_congr_left known

/-- Outcomes that all succeed succeed in a row. -/
lemma exists_mapM_eq_ok {f : α → Except Fault β} {as : List α}
    (all : ∀ a ∈ as, ∃ b, f a = .ok b) : ∃ bs, as.mapM f = .ok bs := by
  induction as with
  | nil => exact ⟨[], rfl⟩
  | cons a rest ih =>
    obtain ⟨⟨b, here⟩, all⟩ := List.forall_mem_cons.mp all
    obtain ⟨bs, there⟩ := ih all
    exact ⟨b :: bs, by rw [List.mapM_cons, here, ok_bind, there]; rfl⟩

/-- Outcomes in a row fail with a fault of one of them. -/
lemma exists_of_mapM_eq_error {f : α → Except Fault β} {as : List α} {fault : Fault}
    (failed : as.mapM f = .error fault) : ∃ a ∈ as, f a = .error fault := by
  induction as with
  | nil => cases failed
  | cons a rest ih =>
    rw [List.mapM_cons] at failed
    obtain here | ⟨b, _, failed⟩ := bind_eq_error.mp failed
    · exact ⟨a, List.mem_cons_self, here⟩
    · obtain there | ⟨bs, _, done⟩ := bind_eq_error.mp failed
      · obtain ⟨a', mem, failed⟩ := ih there
        exact ⟨a', List.mem_cons_of_mem _ mem, failed⟩
      · cases done

/-- Outcomes that know one fault only know no other one in a row, and they fail in a row if one of
them does. -/
lemma mapM_eq_error_iff {f : α → Except Fault β} {as : List α} {only : Fault} {fails : α → Prop}
    (known : ∀ a ∈ as, ∀ fault, f a = .error fault ↔ fault = only ∧ fails a) (fault : Fault) :
    as.mapM f = .error fault ↔ fault = only ∧ ∃ a ∈ as, fails a := by
  have found {fault : Fault} (failed : as.mapM f = .error fault) :
      fault = only ∧ ∃ a ∈ as, fails a := by
    obtain ⟨a, mem, failed⟩ := exists_of_mapM_eq_error failed
    obtain ⟨same, fails⟩ := (known a mem fault).mp failed
    exact ⟨same, a, mem, fails⟩
  refine ⟨found, ?_⟩
  rintro ⟨rfl, a, mem, fails⟩
  cases all : as.mapM f with
  | ok bs =>
    obtain ⟨b, succeeded⟩ := exists_of_mapM_eq_ok all mem
    cases ((known a mem fault).mpr ⟨rfl, fails⟩).symm.trans succeeded
  | error other => rw [(found all).1]

/-- Outcomes in another order have their values in another order, or both rows fail. -/
lemma mapM_perm {f : α → Except Fault β} {as as' : List α} (rearranged : as'.Perm as) :
    (∃ bs bs', as.mapM f = .ok bs ∧ as'.mapM f = .ok bs' ∧ bs'.Perm bs) ∨
      ∃ fault fault', as.mapM f = .error fault ∧ as'.mapM f = .error fault' := by
  cases here : as.mapM f with
  | ok bs =>
    obtain ⟨bs', there⟩ := exists_mapM_eq_ok fun a mem =>
      exists_of_mapM_eq_ok here (rearranged.subset mem)
    refine .inl ⟨bs, bs', rfl, there, ?_⟩
    have values := rearranged.map f
    rw [mapM_eq_ok.mp here, mapM_eq_ok.mp there] at values
    exact (List.map_perm_map_iff fun _ _ => Except.ok.inj).mp values
  | error fault =>
    obtain ⟨a, mem, failed⟩ := exists_of_mapM_eq_error here
    cases there : as'.mapM f with
    | error fault' => exact .inr ⟨fault, fault', rfl, rfl⟩
    | ok bs' =>
      obtain ⟨b, succeeded⟩ := exists_of_mapM_eq_ok there (rearranged.symm.subset mem)
      cases failed.symm.trans succeeded

/-- A selection by outcomes succeeds if and only if all of them do. -/
lemma filterM_eq_ok {keep : α → Except Fault Bool} {as bs : List α} :
    as.filterM keep = .ok bs ↔
      (∀ a ∈ as, ∃ kept, keep a = .ok kept) ∧ bs = as.filter fun a => keep a = .ok true := by
  -- What is kept so far is collected in reverse.
  have collected (kept bs : List α) : as.filterAuxM keep kept = .ok bs ↔
      (∀ a ∈ as, ∃ kept, keep a = .ok kept)
        ∧ bs = (as.filter fun a => keep a = .ok true).reverse ++ kept := by
    induction as generalizing kept with
    | nil => simp [List.filterAuxM, eq_comm]
    | cons a rest ih =>
      rw [List.filterAuxM, bind_eq_ok, List.forall_mem_cons, List.filter_cons]
      cases here : keep a with
      | error fault => simp
      | ok isKept => cases isKept <;> simp [ih]
  rw [List.filterM, bind_eq_ok]
  simp only [collected, List.append_nil, pure_eq, Except.ok.injEq]
  constructor
  · rintro ⟨_, ⟨total, rfl⟩, rfl⟩
    exact ⟨total, List.reverse_reverse _⟩
  · rintro ⟨total, rfl⟩
    exact ⟨_, ⟨total, rfl⟩, List.reverse_reverse _⟩

/-- A filter keeps the values of its tests that are there. -/
lemma filterMapM_eq_mapM (f : α → Except Fault (Option β)) (as : List α) :
    as.filterMapM f = List.reduceOption <$> as.mapM f := by
  induction as with
  | nil => rfl
  | cons a rest ih =>
    rw [List.filterMapM_cons, List.mapM_cons, ih]
    cases f a with
    | error fault => rfl
    | ok chosen =>
      cases rest.mapM f with
      | error fault => cases chosen <;> rfl
      | ok others => cases chosen <;> rfl

/-- A filter whose tests have known values selects by these values. -/
lemma filterMapM_eq_ok {f : α → Except Fault (Option β)} {g : α → Option β} {as : List α}
    (known : ∀ a ∈ as, f a = .ok (g a)) : as.filterMapM f = .ok (as.filterMap g) := by
  rw [filterMapM_eq_mapM, mapM_eq_ok_map known, map_eq_ok]
  refine ⟨_, rfl, ?_⟩
  rw [List.reduceOption, List.filterMap_map]
  rfl

/-- What a filter selects are the values of its tests. -/
lemma mem_of_filterMapM_eq_ok {f : α → Except Fault (Option β)} {as : List α} {bs : List β}
    (done : as.filterMapM f = .ok bs) (b : β) : b ∈ bs ↔ ∃ a ∈ as, f a = .ok (some b) := by
  rw [filterMapM_eq_mapM] at done
  obtain ⟨chosen, all, rfl⟩ := map_eq_ok.mp done
  rw [List.reduceOption_mem_iff, mem_of_mapM_eq_ok all]

/-- A collection whose steps all succeed, each with what it may choose from its element, collects
what is chosen. -/
lemma foldlM_eq_ok {γ : Type} {f : β → α → Except Fault β} {choose : α → Option γ} {g : β → γ → β}
    (known : ∀ b a, f b a = .ok ((choose a).toList.foldl g b)) (as : List α) (b : β) :
    as.foldlM f b = .ok ((as.filterMap choose).foldl g b) := by
  induction as generalizing b with
  | nil => rfl
  | cons a rest ih =>
    rw [List.foldlM_cons, known, ok_bind, ih, List.filterMap_cons]
    cases choose a with
    | none => rfl
    | some c => rfl

end ExportCover.Outcome
