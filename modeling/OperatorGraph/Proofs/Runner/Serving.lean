import OperatorGraph.Proofs.Runner.History

set_option autoImplicit false

namespace OperatorGraph

namespace Registry

variable {State : Type}

/-- The registry takes launches one after the other, and none of them fails. -/
inductive Accepts (registry : Registry State) : State → List Launch → State → Prop where
  | none (stream : State) : registry.Accepts stream [] stream
  | next {stream last : State} {launch : Launch} {rest : List Launch}
      (taken : (registry.launch launch stream).result = .ok ())
      (later : registry.Accepts (registry.launch launch stream).state rest last) :
      registry.Accepts stream (launch :: rest) last

/-- What comes of launches that are handed over in order: all are taken, or the first that fails is
the last that the registry sees. -/
inductive Serves (registry : Registry State) (stream : State) (made : List Launch) :
    Except Error Unit → State → Prop where
  | all {last : State} (taken : registry.Accepts stream made last) :
      registry.Serves stream made (.ok ()) last
  | stopped {before rest : List Launch} {launch : Launch} {middle : State} {source : KernelError}
      (order : made = before ++ launch :: rest) (taken : registry.Accepts stream before middle)
      (failed : (registry.launch launch middle).result = .error source) :
      registry.Serves stream made (.error (.dispatch launch.node launch.param.family source))
        (registry.launch launch middle).state

/-- A launch that is taken comes before whatever comes of the rest. -/
theorem Serves.next {registry : Registry State} {stream last : State} {launch : Launch}
    {rest : List Launch} {result : Except Error Unit}
    (taken : (registry.launch launch stream).result = .ok ())
    (served : registry.Serves (registry.launch launch stream).state rest result last) :
    registry.Serves stream (launch :: rest) result last := by
  cases served with
  | all later => exact .all (.next taken later)
  | stopped order later failed =>
    subst order
    exact .stopped (List.cons_append ..).symm (.next taken later) failed

/-- A registry that takes all launches takes the one behind any of them. -/
theorem Accepts.taken {registry : Registry State} {stream last middle : State}
    {before rest : List Launch} {launch : Launch}
    (all : registry.Accepts stream (before ++ launch :: rest) last)
    (reached : registry.Accepts stream before middle) :
    (registry.launch launch middle).result = .ok () := by
  induction reached with
  | none stream =>
    cases all with
    | next taken _ => exact taken
  | next _ _ ih =>
    cases all with
    | next _ later => exact ih later

theorem Serves.result_ok {registry : Registry State} {stream last : State} {made : List Launch}
    {result : Except Error Unit} (served : registry.Serves stream made result last) :
    result = .ok () ↔ ∃ taken, registry.Accepts stream made taken := by
  cases served with
  | all taken => exact ⟨fun _ => ⟨_, taken⟩, fun _ => rfl⟩
  | stopped order taken failed =>
    subst order
    refine ⟨fun success => by simp at success, ?_⟩
    rintro ⟨_, all⟩
    rw [all.taken taken] at failed
    simp at failed

/-- Serving fails by a launch that fails. -/
theorem Serves.dispatch {registry : Registry State} {stream last : State} {made : List Launch}
    {refusal : Error} (served : registry.Serves stream made (.error refusal) last) :
    ∃ launch ∈ made, ∃ source, refusal = .dispatch launch.node launch.param.family source := by
  cases served with
  | @stopped before rest launch middle source order taken failed =>
    exact ⟨launch, by simp [order], source, rfl⟩

end Registry

namespace Runner

variable {State : Type} (r : Runner) (registry : Registry State)

theorem submit_of_ok {launch : Launch} {stream : State}
    (taken : (registry.launch launch stream).result = .ok ()) :
    (r.submit registry stream launch).state = (registry.launch launch stream).state ∧
      (r.submit registry stream launch).result = .ok () := by
  simp [submit, taken]

theorem submit_of_error {launch : Launch} {stream : State} {source : KernelError}
    (failed : (registry.launch launch stream).result = .error source) :
    (r.submit registry stream launch).state = (registry.launch launch stream).state ∧
      (r.submit registry stream launch).result =
        .error (.dispatch launch.node launch.param.family source) := by
  simp [submit, failed]

theorem serves_submit (made : List Launch) (stream : State) :
    registry.Serves stream made (Outcome.forEach (r.submit registry) stream made).result
      (Outcome.forEach (r.submit registry) stream made).state := by
  induction made generalizing stream with
  | nil => exact .all (.none stream)
  | cons launch rest ih =>
    rw [Outcome.forEach_cons]
    cases ran : (registry.launch launch stream).result with
    | error source =>
      obtain ⟨state, result⟩ := r.submit_of_error registry ran
      rw [Outcome.andThen_of_error _ result, state]
      exact .stopped (List.nil_append _).symm (.none stream) ran
    | ok _ =>
      obtain ⟨state, result⟩ := r.submit_of_ok registry ran
      rw [Outcome.andThen_of_ok _ result, state]
      exact (ih _).next ran

/-- An execution serves the launches of its call. -/
theorem execute_serves {call : Pack} {made : List Launch} (answered : r.launches call = .ok made)
    (stream : State) : registry.Serves stream made (r.execute registry stream call).result
      (r.execute registry stream call).state.2 := by
  have served := r.serves_submit registry made stream
  rw [execute_of_launches answered]
  cases ran : (Outcome.forEach (r.submit registry) stream made).result with
  | error refusal =>
    rw [ran] at served
    simpa only [Outcome.andThen, Outcome.within, ran] using served
  | ok _ =>
    rw [ran] at served
    simpa only [Outcome.andThen, Outcome.within, ran, Outcome.done] using served

end Runner

end OperatorGraph
