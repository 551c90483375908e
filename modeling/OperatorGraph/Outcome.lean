import OperatorGraph.Log

set_option autoImplicit false

namespace OperatorGraph

/-- What a step on a state came to. A step that fails keeps its changes and its log lines. -/
@[ext] structure Outcome (State Reason α : Type) where
  state : State
  log : Log
  result : Except Reason α

namespace Outcome

variable {State Reason α β : Type}

def done (state : State) (value : α) : Outcome State Reason α :=
  ⟨state, [], .ok value⟩

def failed (state : State) (reason : Reason) : Outcome State Reason α :=
  ⟨state, [], .error reason⟩

/-- A change that happens as a whole or not at all. -/
def attempt (state : State) : Except Reason State → Outcome State Reason Unit
  | .ok next => done next ()
  | .error reason => failed state reason

/-- Runs a second step after a first that succeeded. -/
def andThen (first : Outcome State Reason α) (next : State → α → Outcome State Reason β) :
    Outcome State Reason β :=
  match first.result with
  | .ok value =>
    let second := next first.state value
    ⟨second.state, first.log ++ second.log, second.result⟩
  | .error reason => ⟨first.state, first.log, .error reason⟩

/-- The same outcome on a larger state. -/
def within {Outer : Type} (inner : Outcome State Reason α) (wrap : State → Outer) :
    Outcome Outer Reason α :=
  ⟨wrap inner.state, inner.log, inner.result⟩

def logging (inner : Outcome State Reason α) (severity : Severity) (text : String) :
    Outcome State Reason α :=
  { inner with log := inner.log ++ [⟨severity, text⟩] }

/-- Runs a step for every item in order, up to the first that fails. -/
def forEach {Item : Type} (step : State → Item → Outcome State Reason Unit) (state : State) :
    List Item → Outcome State Reason Unit
  | [] => done state ()
  | item :: rest => (step state item).andThen fun next _ => forEach step next rest

theorem andThen_of_ok {first : Outcome State Reason α} {value : α}
    (next : State → α → Outcome State Reason β) (success : first.result = .ok value) :
    first.andThen next =
      ⟨(next first.state value).state, first.log ++ (next first.state value).log,
        (next first.state value).result⟩ := by
  simp only [andThen, success]

theorem andThen_of_error {first : Outcome State Reason α} {reason : Reason}
    (next : State → α → Outcome State Reason β) (failed : first.result = .error reason) :
    first.andThen next = ⟨first.state, first.log, .error reason⟩ := by
  simp only [andThen, failed]

@[simp] theorem forEach_nil {Item : Type} (step : State → Item → Outcome State Reason Unit)
    (state : State) : forEach step state [] = done state () := rfl

@[simp] theorem forEach_cons {Item : Type} (step : State → Item → Outcome State Reason Unit)
    (state : State) (item : Item) (rest : List Item) :
    forEach step state (item :: rest) =
      (step state item).andThen fun next _ => forEach step next rest := rfl

theorem within_eq_within {View : Type} {view : State → View} {s t : Outcome State Reason α} :
    s.within view = t.within view ↔
      view s.state = view t.state ∧ s.log = t.log ∧ s.result = t.result := by
  simp only [within, Outcome.mk.injEq]

@[simp] theorem forEach_singleton {Item : Type}
    (step : State → Item → Outcome State Reason Unit) (state : State) (item : Item) :
    forEach step state [item] = step state item := by
  cases success : (step state item).result with
  | error reason =>
    rw [forEach_cons, andThen_of_error _ success]
    exact Outcome.ext rfl rfl success.symm
  | ok value =>
    rw [forEach_cons, andThen_of_ok _ success]
    exact Outcome.ext rfl (List.append_nil _) success.symm

theorem andThen_eq_ok {first : Outcome State Reason α} {next : State → α → Outcome State Reason β}
    {value : β} : (first.andThen next).result = .ok value ↔
      ∃ middle, first.result = .ok middle ∧ (next first.state middle).result = .ok value := by
  cases success : first.result with
  | error reason => simp [andThen, success]
  | ok middle => simp [andThen, success]

/-- What every step keeps, a run keeps, wherever it stops. -/
theorem forEach_keeps {Item : Type} {step : State → Item → Outcome State Reason Unit}
    (holds : State → Prop) (items : List Item)
    (keeps : ∀ state, ∀ item ∈ items, holds state → holds (step state item).state)
    (state : State) (start : holds state) : holds (forEach step state items).state := by
  induction items generalizing state with
  | nil => exact start
  | cons item rest ih =>
    have first := keeps state item (by simp) start
    cases success : (step state item).result with
    | error reason => simpa only [forEach_cons, andThen_of_error _ success] using first
    | ok value =>
      simp only [forEach_cons, andThen_of_ok _ success]
      exact ih (fun s i member => keeps s i (by simp [member])) _ first

/-- If a step shows the same through a view of the state wherever two states look alike, then so
does a run. -/
theorem forEach_within {Item View : Type} {step : State → Item → Outcome State Reason Unit}
    {view : State → View} (same : ∀ s t item, view s = view t →
      (step s item).within view = (step t item).within view)
    (items : List Item) (s t : State) (alike : view s = view t) :
    (forEach step s items).within view = (forEach step t items).within view := by
  induction items generalizing s t with
  | nil => simp only [forEach_nil, done, within, alike]
  | cons item rest ih =>
    obtain ⟨state, log, result⟩ := within_eq_within.mp (same s t item alike)
    cases success : (step s item).result with
    | error reason =>
      rw [success] at result
      simp only [forEach_cons, andThen_of_error _ success, andThen_of_error _ result.symm, within,
        state, log]
    | ok value =>
      rw [success] at result
      have later := within_eq_within.mp (ih _ _ state)
      simp only [forEach_cons, andThen_of_ok _ success, andThen_of_ok _ result.symm, within,
        log, later]

theorem forEach_map {Item Other : Type} (step : State → Other → Outcome State Reason Unit)
    (change : Item → Other) (state : State) (items : List Item) :
    forEach step state (items.map change) =
      forEach (fun next item => step next (change item)) state items := by
  induction items generalizing state with
  | nil => rfl
  | cons item rest ih => simp only [List.map_cons, forEach_cons, ih]

/-- If a step commutes with a change of the states that satisfy an invariant, then so does a run. -/
theorem forEach_commutes {Item : Type} {step : State → Item → Outcome State Reason Unit}
    {change : State → State} {holds : State → Prop}
    (commutes : ∀ state item, holds state →
      step (change state) item = (step state item).within change)
    (keeps : ∀ state item, holds state → holds (step state item).state)
    (items : List Item) (state : State) (start : holds state) :
    forEach step (change state) items = (forEach step state items).within change := by
  induction items generalizing state with
  | nil => rfl
  | cons item rest ih =>
    simp only [forEach_cons, commutes state item start]
    cases success : (step state item).result with
    | error reason => simp only [andThen, within, success]
    | ok value => simp only [andThen, within, success, ih _ (keeps state item start)]

/-- If successful steps from related states lead to related states, then so do successful runs. -/
theorem forEach_related {Item : Type} {step : State → Item → Outcome State Reason Unit}
    (related : State → State → Prop)
    (keeps : ∀ s t item, related s t → (step s item).result = .ok () →
      (step t item).result = .ok () → related (step s item).state (step t item).state)
    (items : List Item) (s t : State) (start : related s t)
    (first : (forEach step s items).result = .ok ())
    (second : (forEach step t items).result = .ok ()) :
    related (forEach step s items).state (forEach step t items).state := by
  induction items generalizing s t with
  | nil => exact start
  | cons item rest ih =>
    simp only [forEach_cons, andThen_eq_ok] at first second
    obtain ⟨_, here, first⟩ := first
    obtain ⟨_, here', second⟩ := second
    simp only [forEach_cons, andThen_of_ok _ here, andThen_of_ok _ here']
    exact ih _ _ (keeps s t item start here here') first second

theorem andThen_assoc {γ : Type} (first : Outcome State Reason α)
    (next : State → α → Outcome State Reason β) (last : State → β → Outcome State Reason γ) :
    (first.andThen next).andThen last =
      first.andThen fun state value => (next state value).andThen last := by
  cases success : first.result with
  | error reason => simp only [andThen, success]
  | ok value =>
    simp only [andThen_of_ok _ success]
    cases later : (next first.state value).result with
    | error reason => simp only [andThen, later]
    | ok value => simp only [andThen, later, List.append_assoc]

/-- A run over two lists is a run over the second after one over the first. -/
theorem forEach_append {Item : Type} (step : State → Item → Outcome State Reason Unit)
    (state : State) (first second : List Item) :
    forEach step state (first ++ second) =
      (forEach step state first).andThen fun next _ => forEach step next second := by
  induction first generalizing state with
  | nil => simp [andThen, done]
  | cons item rest ih => simp only [List.cons_append, forEach_cons, andThen_assoc, ih]

/-- In a successful run over positions, every step follows the successful run over the positions
before it. -/
theorem forEach_range {step : State → Nat → Outcome State Reason Unit} {state : State} {count : Nat}
    (success : (forEach step state (List.range count)).result = .ok ()) {position : Nat}
    (inside : position < count) :
    (step (forEach step state (List.range position)).state position).result = .ok () ∧
      (forEach step state (List.range (position + 1))).state =
        (step (forEach step state (List.range position)).state position).state := by
  induction count with
  | zero => omega
  | succ count ih =>
    rw [List.range_succ, forEach_append, andThen_eq_ok] at success
    obtain ⟨_, before, last⟩ := success
    by_cases earlier : position < count
    · exact ih before earlier
    · obtain rfl : position = count := by omega
      rw [forEach_cons, andThen_eq_ok] at last
      obtain ⟨_, here, -⟩ := last
      refine ⟨here, ?_⟩
      rw [List.range_succ, forEach_append, andThen_of_ok _ before, forEach_cons,
        andThen_of_ok _ here]
      rfl

/-- An invariant of a run over positions. It holds at the end of a run that succeeds, and a run that
fails does so for a reason that some step gives while the invariant holds. -/
theorem forEach_range_invariant {step : State → Nat → Outcome State Reason Unit} (count : Nat)
    (state : State) (holds : Nat → State → Prop) (gives : Reason → Prop)
    (keeps : ∀ state position, position < count → holds position state →
      (step state position).result = .ok () → holds (position + 1) (step state position).state)
    (fails : ∀ state position reason, position < count → holds position state →
      (step state position).result = .error reason → gives reason)
    (start : holds 0 state) :
    ((forEach step state (List.range count)).result = .ok () →
      holds count (forEach step state (List.range count)).state) ∧
    ∀ reason, (forEach step state (List.range count)).result = .error reason → gives reason := by
  induction count with
  | zero => exact ⟨fun _ => start, fun reason failed => by simp [done] at failed⟩
  | succ count ih =>
    obtain ⟨succeeds, refuses⟩ := ih
      (fun state position before => keeps state position (by omega))
      (fun state position reason before => fails state position reason (by omega))
    rw [List.range_succ, forEach_append]
    cases before : (forEach step state (List.range count)).result with
    | error reason =>
      rw [andThen_of_error _ before]
      refine ⟨fun success => by simp at success, fun other failed => ?_⟩
      rw [← Except.error.inj failed]
      exact refuses reason before
    | ok _ =>
      rw [andThen_of_ok _ before, forEach_singleton]
      have reached := succeeds before
      exact ⟨keeps _ count (by omega) reached,
        fun reason => fails _ count reason (by omega) reached⟩

/-- What the steps of a successful run keep from a position on, the run keeps from there on. -/
theorem forEach_range_keeps {View : Type} {step : State → Nat → Outcome State Reason Unit}
    {state : State} (view : State → View) {position count : Nat}
    (success : (forEach step state (List.range count)).result = .ok ()) (inside : position ≤ count)
    (keeps : ∀ later, position ≤ later → later < count →
      view (step (forEach step state (List.range later)).state later).state =
        view (forEach step state (List.range later)).state) :
    view (forEach step state (List.range count)).state =
      view (forEach step state (List.range position)).state := by
  have upTo (distance : Nat) (within : position + distance ≤ count) :
      view (forEach step state (List.range (position + distance))).state =
        view (forEach step state (List.range position)).state := by
    induction distance with
    | zero => rfl
    | succ distance ih =>
      have inside : position + distance < count := by omega
      have next := (forEach_range success inside).2
      rw [← Nat.add_assoc, next, keeps _ (by omega) (by omega), ih (by omega)]
  have whole := upTo (count - position) (by omega)
  rwa [Nat.add_sub_of_le inside] at whole

end Outcome

end OperatorGraph
