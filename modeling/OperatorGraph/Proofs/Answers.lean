import Mathlib.Data.List.Forall2

set_option autoImplicit false

namespace OperatorGraph.Answer

variable {Reason α β : Type}

@[simp] theorem bind_eq_ok {first : Except Reason α} {next : α → Except Reason β} {b : β} :
    (first >>= next) = .ok b ↔ ∃ a, first = .ok a ∧ next a = .ok b := by
  cases first with
  | error reason => simp [bind, Except.bind]
  | ok a => simp [bind, Except.bind]

theorem bind_eq_error {first : Except Reason α} {next : α → Except Reason β} {reason : Reason} :
    (first >>= next) = .error reason ↔
      first = .error reason ∨ ∃ a, first = .ok a ∧ next a = .error reason := by
  cases first with
  | error reason => simp [bind, Except.bind]
  | ok a => simp [bind, Except.bind]

@[simp] theorem mapError_eq_ok {Other : Type} {first : Except Reason α} {wrap : Reason → Other}
    {a : α} : first.mapError wrap = .ok a ↔ first = .ok a := by
  cases first <;> simp [Except.mapError]

@[simp] theorem pure_eq_ok {a b : α} : (pure a : Except Reason α) = .ok b ↔ a = b := by
  simp [pure, Except.pure]

theorem forM_eq_ok {check : α → Except Reason Unit} {list : List α} :
    list.forM check = .ok () ↔ ∀ a ∈ list, check a = .ok () := by
  induction list with
  | nil => simp
  | cons first rest ih =>
    rw [List.forall_mem_cons, ← ih]
    refine (bind_eq_ok : (check first >>= fun _ => rest.forM check) = .ok () ↔ _).trans ?_
    exact ⟨fun ⟨_, here, later⟩ => ⟨here, later⟩, fun ⟨here, later⟩ => ⟨(), here, later⟩⟩

/-- The answers for the entries of a list stand where the entries stand. -/
theorem getElem?_mapM {step : α → Except Reason β} {list : List α} {answers : List β}
    (answered : list.mapM step = .ok answers) (i : Nat) :
    (list[i]?).map step = (answers[i]?).map .ok := by
  induction list generalizing answers i with
  | nil =>
    simp only [List.mapM_nil, pure_eq_ok] at answered
    simp [← answered]
  | cons a rest ih =>
    simp only [List.mapM_cons, bind_eq_ok, pure_eq_ok] at answered
    obtain ⟨b, first, later, answered, rfl⟩ := answered
    cases i with
    | zero => simp [first]
    | succ i => simpa using ih answered i

theorem length_mapM {step : α → Except Reason β} {list : List α} {answers : List β}
    (answered : list.mapM step = .ok answers) : answers.length = list.length := by
  induction list generalizing answers with
  | nil =>
    simp only [List.mapM_nil, pure_eq_ok] at answered
    simp [← answered]
  | cons a rest ih =>
    simp only [List.mapM_cons, bind_eq_ok, pure_eq_ok] at answered
    obtain ⟨b, -, later, answered, rfl⟩ := answered
    simp [ih answered]

/-- Lists are related if they are so position by position. -/
theorem forall₂_of_getElem? {related : α → β → Prop} {first : List α} {second : List β}
    (lengths : first.length = second.length)
    (each : ∀ (i : Nat) (a : α) (b : β), first[i]? = some a → second[i]? = some b → related a b) :
    List.Forall₂ related first second := by
  refine List.forall₂_of_length_eq_of_get lengths fun i inFirst inSecond => ?_
  exact each i _ _ (List.getElem?_eq_getElem inFirst) (List.getElem?_eq_getElem inSecond)

theorem forall₂_of_mapM {step : α → Except Reason β} {list : List α} {answers : List β}
    (answered : list.mapM step = .ok answers) :
    List.Forall₂ (fun a b => a ∈ list ∧ step a = .ok b) list answers := by
  refine forall₂_of_getElem? (length_mapM answered).symm fun i a b atList atAnswers => ?_
  have answer := getElem?_mapM answered i
  rw [atList, atAnswers, Option.map_some, Option.map_some, Option.some.injEq] at answer
  exact ⟨List.mem_of_getElem? atList, answer⟩

theorem getElem?_of_forall₂ {related : α → β → Prop} {first : List α} {second : List β}
    (all : List.Forall₂ related first second) {i : Nat} {a : α} {b : β} (atA : first[i]? = some a)
    (atB : second[i]? = some b) : related a b := by
  induction all generalizing i with
  | nil => simp at atA
  | cons here _ ih =>
    cases i with
    | zero =>
      simp only [List.getElem?_cons_zero, Option.some.injEq] at atA atB
      exact atA ▸ atB ▸ here
    | succ i => exact ih (by simpa using atA) (by simpa using atB)

theorem exists_mem_zip {related : α → β → Prop} {first : List α} {second : List β}
    (all : List.Forall₂ related first second) {b : β} (member : b ∈ second) :
    ∃ a, (a, b) ∈ first.zip second ∧ related a b := by
  obtain ⟨lengths, pairs⟩ := List.forall₂_iff_zip.mp all
  have whole : (first.zip second).map Prod.snd = second :=
    List.map_snd_zip (Nat.le_of_eq lengths.symm)
  rw [← whole] at member
  obtain ⟨⟨a, _⟩, pair, rfl⟩ := List.mem_map.mp member
  exact ⟨a, pair, pairs pair⟩

theorem mapM_answers {step : α → Except Reason β} {list : List α}
    (each : ∀ a ∈ list, ∃ b, step a = .ok b) : ∃ answers, list.mapM step = .ok answers := by
  induction list with
  | nil => exact ⟨[], rfl⟩
  | cons a rest ih =>
    obtain ⟨b, first⟩ := each a (by simp)
    obtain ⟨later, answered⟩ := ih fun other member => each other (by simp [member])
    exact ⟨b :: later, by simp [first, answered, List.mapM_cons]⟩

/-- Where a whole list has no answer, some entry has none. -/
theorem of_mapM_eq_error {step : α → Except Reason β} {list : List α} {reason : Reason}
    (refused : list.mapM step = .error reason) : ∃ a ∈ list, step a = .error reason := by
  induction list with
  | nil => simp [pure, Except.pure] at refused
  | cons a rest ih =>
    rw [List.mapM_cons, bind_eq_error] at refused
    rcases refused with first | ⟨b, -, later⟩
    · exact ⟨a, by simp, first⟩
    · rcases bind_eq_error.mp later with later | ⟨answers, -, impossible⟩
      · obtain ⟨other, member, there⟩ := ih later
        exact ⟨other, by simp [member], there⟩
      · simp [pure, Except.pure] at impossible

/-- A whole list is refused by the first entry that is. -/
theorem mapM_eq_error {step : α → Except Reason β} {list : List α} {reason : Reason} :
    list.mapM step = .error reason ↔ ∃ (i : Nat) (a : α), list[i]? = some a ∧
      step a = .error reason ∧ ∀ j < i, ∀ b, list[j]? = some b → ∃ answer, step b = .ok answer := by
  induction list with
  | nil => simp [pure, Except.pure]
  | cons first rest ih =>
    rw [List.mapM_cons, bind_eq_error]
    constructor
    · rintro (here | ⟨answer, here, later⟩)
      · exact ⟨0, first, rfl, here, by simp⟩
      · rcases bind_eq_error.mp later with later | ⟨_, -, impossible⟩
        · obtain ⟨i, a, found, refused, before⟩ := ih.mp later
          refine ⟨i + 1, a, found, refused, fun j small b atB => ?_⟩
          cases j with
          | zero => exact ⟨answer, Option.some.inj atB ▸ here⟩
          | succ j => exact before j (by omega) b atB
        · simp [pure, Except.pure] at impossible
    · rintro ⟨i, a, found, refused, before⟩
      cases i with
      | zero => exact .inl (Option.some.inj found ▸ refused)
      | succ i =>
        obtain ⟨answer, here⟩ := before 0 (by omega) first rfl
        refine .inr ⟨answer, here, bind_eq_error.mpr (.inl (ih.mpr ⟨i, a, found, refused, ?_⟩))⟩
        exact fun j small b atB => before (j + 1) (by omega) b atB

theorem mapM_eq_ok_of {Other : Type} {step : α → Except Reason β} {step' : α → Except Other β}
    {list : List α} (same : ∀ a ∈ list, ∀ b, step a = .ok b → step' a = .ok b) {answers : List β}
    (answered : list.mapM step = .ok answers) : list.mapM step' = .ok answers := by
  induction list generalizing answers with
  | nil => simpa using answered
  | cons a rest ih =>
    simp only [List.mapM_cons, bind_eq_ok, pure_eq_ok] at answered ⊢
    obtain ⟨b, first, later, answered, rfl⟩ := answered
    exact ⟨b, same a (by simp) b first, later,
      ih (fun other member => same other (by simp [member])) answered, rfl⟩

theorem mapM_eq_ok_map {step : α → Except Reason β} {answer : α → β} {list : List α}
    (each : ∀ a ∈ list, step a = .ok (answer a)) : list.mapM step = .ok (list.map answer) := by
  induction list with
  | nil => rfl
  | cons first rest ih =>
    rw [List.mapM_cons, each first List.mem_cons_self,
      ih fun a member => each a (List.mem_cons_of_mem _ member)]
    rfl

theorem mapM_congr {step step' : α → Except Reason β} {list : List α}
    (same : ∀ a ∈ list, step a = step' a) : list.mapM step = list.mapM step' := by
  induction list with
  | nil => rfl
  | cons a rest ih =>
    rw [List.mapM_cons, List.mapM_cons, same a (by simp),
      ih fun other member => same other (by simp [member])]

theorem mapM_map_answers {γ : Type} (step : α → Except Reason β) (change : β → γ) (list : List α) :
    list.mapM (fun a => (step a).map change) = (list.mapM step).map (List.map change) := by
  induction list with
  | nil => rfl
  | cons a rest ih =>
    simp only [List.mapM_cons, ih]
    cases step a with
    | error reason => rfl
    | ok b => cases rest.mapM step <;> rfl

/-- Both refuse for the same reason, or both answer, with related answers. -/
inductive Alike (related : α → β → Prop) : Except Reason α → Except Reason β → Prop where
  | refused (reason : Reason) : Alike related (.error reason) (.error reason)
  | answered {a : α} {b : β} (same : related a b) : Alike related (.ok a) (.ok b)

theorem Alike.imp {related weaker : α → β → Prop} (weakens : ∀ a b, related a b → weaker a b)
    {first : Except Reason α} {second : Except Reason β} (alike : Alike related first second) :
    Alike weaker first second := by
  cases alike with
  | refused reason => exact .refused reason
  | answered same => exact .answered (weakens _ _ same)

theorem Alike.refl {related : α → α → Prop} (same : ∀ a, related a a) (first : Except Reason α) :
    Alike related first first := by
  cases first with
  | error reason => exact .refused reason
  | ok a => exact .answered (same a)

theorem Alike.bind {α' β' : Type} {related : α → β → Prop} {related' : α' → β' → Prop}
    {first : Except Reason α} {second : Except Reason β} {next : α → Except Reason α'}
    {next' : β → Except Reason β'} (alike : Alike related first second)
    (later : ∀ a b, related a b → Alike related' (next a) (next' b)) :
    Alike related' (first >>= next) (second >>= next') := by
  cases alike with
  | refused reason => exact .refused reason
  | answered same => exact later _ _ same

/-- Steps that are alike on every entry are alike on the whole list. -/
theorem Alike.mapM {Item : Type} {related : α → β → Prop} {step : Item → Except Reason α}
    {step' : Item → Except Reason β} (list : List Item)
    (each : ∀ item ∈ list, Alike related (step item) (step' item)) :
    Alike (List.Forall₂ related) (list.mapM step) (list.mapM step') := by
  induction list with
  | nil => exact .answered .nil
  | cons item rest ih =>
    have later := ih fun other member => each other (by simp [member])
    rw [List.mapM_cons, List.mapM_cons]
    refine (each item (by simp)).bind fun a b same => ?_
    exact later.bind fun as bs sames => .answered (.cons same sames)

end OperatorGraph.Answer
