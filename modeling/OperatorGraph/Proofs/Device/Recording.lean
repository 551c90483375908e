import OperatorGraph.Device
import OperatorGraph.Proofs.Dispatch.Spans
import OperatorGraph.Proofs.Runner.Serving

set_option autoImplicit false

namespace OperatorGraph

/-- A run that fails has a step that fails, in a state with whatever every step keeps. -/
theorem Outcome.forEach_fails {State Reason Item : Type}
    {step : State → Item → Outcome State Reason Unit} (holds : State → Prop)
    (keeps : ∀ state item, holds state → holds (step state item).state) {items : List Item}
    {state : State} (start : holds state) {reason : Reason}
    (failed : (forEach step state items).result = .error reason) :
    ∃ item ∈ items, ∃ reached, holds reached ∧ (step reached item).result = .error reason := by
  induction items generalizing state with
  | nil => simp [done] at failed
  | cons item rest ih =>
    rw [forEach_cons] at failed
    cases first : (step state item).result with
    | error other =>
      rw [andThen_of_error _ first] at failed
      obtain rfl : other = reason := Except.error.inj failed
      exact ⟨item, by simp, state, start, first⟩
    | ok _ =>
      rw [andThen_of_ok _ first] at failed
      obtain ⟨later, member, found⟩ := ih (keeps state item start) failed
      exact ⟨later, by simp [member], found⟩

namespace Device

/-- Devices that resolve ranges alike. -/
structure Alike (d e : Device) : Prop where
  adapter : d.adapter = e.adapter
  memory : d.memory = e.memory

theorem Alike.refl (d : Device) : d.Alike d :=
  ⟨rfl, rfl⟩

theorem Alike.trans {d e f : Device} (first : d.Alike e) (second : e.Alike f) : d.Alike f :=
  ⟨first.adapter.trans second.adapter, first.memory.trans second.memory⟩

theorem Alike.bindSpan {d e : Device} (alike : d.Alike e) (span : Span) :
    d.bindSpan span = e.bindSpan span := by
  simp only [Device.bindSpan, alike.adapter, alike.memory]

theorem compile_alike (d : Device) (kernel : Shader.Kernel) : (d.compile kernel).state.Alike d := by
  unfold compile
  dsimp only
  split
  · exact .refl d
  split
  · exact ⟨rfl, rfl⟩
  · exact .refl d

/-- Compiling and enqueueing ask nothing of the memory. What is wrong in them is a fault. -/
theorem compile_enqueue_fault {node : String} {d : Device} {kernel : Shader.Kernel}
    {threads : Nat} {recorded : Recorded} {reason : KernelError}
    (failed : ((d.compile kernel).andThen fun compiled _ =>
      compiled.enqueue node threads recorded).result = .error reason) :
    ∃ fault, reason = .fault fault := by
  have compiling {other : KernelError} (refused : (d.compile kernel).result = .error other) :
      ∃ fault, other = .fault fault := by
    unfold compile at refused
    dsimp only at refused
    split at refused
    · simp [Outcome.done] at refused
    split at refused
    · simp [Outcome.done] at refused
    · exact ⟨.illTyped, (Except.error.inj refused).symm⟩
  cases compiled : (d.compile kernel).result with
  | error other =>
    rw [Outcome.andThen_of_error _ compiled] at failed
    exact compiling (compiled.trans failed)
  | ok _ =>
    rw [Outcome.andThen_of_ok _ compiled] at failed
    simp only [enqueue] at failed
    split at failed
    · simp at failed
    · exact ⟨.bindingSize, (Except.error.inj failed).symm⟩

/-- Recording changes neither the memory nor the adapter. -/
theorem record_alike (node : String) (d : Device) (dispatch : Dispatch) :
    (record node d dispatch).state.Alike d := by
  unfold record
  split
  · exact .refl d
  split
  · exact .refl d
  split
  · exact .refl d
  · dsimp only
    have compiled := d.compile_alike dispatch.kernel
    cases done : (d.compile dispatch.kernel).result with
    | error _ => rwa [Outcome.andThen_of_error _ done]
    | ok _ =>
      rw [Outcome.andThen_of_ok _ done]
      exact ⟨compiled.adapter, compiled.memory⟩

/-- What the device refuses of a dispatch is one of its ranges. -/
theorem record_refused {node : String} {d : Device} {dispatch : Dispatch} {cause : DeviceError}
    (failed : (record node d dispatch).result = .error (.device cause)) :
    ∃ span ∈ dispatch.tensors, d.bindSpan span = .error cause := by
  unfold record at failed
  split at failed
  · simp [Outcome.failed] at failed
  split at failed
  · simp [Outcome.done] at failed
  split at failed
  · rename_i refusal refused
    obtain rfl : refusal = cause := by simpa [Outcome.failed] using failed
    exact Answer.of_mapM_eq_error refused
  · obtain ⟨fault, impossible⟩ := compile_enqueue_fault failed
    simp at impossible

theorem launch_alike (launch : Launch) (d : Device) :
    (registry.launch launch d).state.Alike d := by
  simp only [registry]
  split
  · exact .refl d
  · refine Outcome.forEach_keeps (·.Alike d) _ (fun state dispatch _ alike => ?_) d (.refl d)
    exact (record_alike launch.node state dispatch).trans alike

/-- What the device refuses of a launch is a range that the launch was handed. -/
theorem launch_refused {launch : Launch} {d : Device} {cause : DeviceError}
    (failed : (registry.launch launch d).result = .error (.device cause)) :
    ∃ span ∈ launch.spans, d.bindSpan span = .error cause := by
  obtain ⟨within, offline⟩ := launch.plans_plan
  simp only [registry] at failed
  split at failed
  · rename_i refusal refused
    obtain rfl : refusal = .device cause := by simpa [Outcome.failed] using failed
    exact absurd refused (offline cause)
  · rename_i dispatches planned
    obtain ⟨dispatch, member, reached, alike, refused⟩ :=
      Outcome.forEach_fails (·.Alike d)
        (fun state dispatch alike => (record_alike _ state dispatch).trans alike) (.refl d) failed
    obtain ⟨span, bound, refused⟩ := record_refused refused
    rw [alike.bindSpan] at refused
    exact ⟨span, within dispatches planned dispatch member bound, refused⟩

theorem accepts_alike {d last : Device} {made : List Launch}
    (taken : registry.Accepts d made last) : last.Alike d := by
  induction taken with
  | none d => exact .refl d
  | @next d last launch rest here later ih => exact ih.trans (launch_alike launch d)

/-- What the device refuses of a run is a range of a launch, as it was before the run. -/
theorem serves_refused {d last : Device} {made : List Launch} {node : String} {family : Family}
    {cause : DeviceError}
    (served : registry.Serves d made (.error (.dispatch node family (.device cause))) last) :
    ∃ launch ∈ made, launch.node = node ∧ launch.param.family = family ∧
      ∃ span ∈ launch.spans, d.bindSpan span = .error cause := by
  generalize outcome : Except.error (Error.dispatch node family (.device cause)) = result at served
  cases served with
  | all => simp at outcome
  | @stopped before rest launch middle source order taken failed =>
    simp only [Except.error.injEq, Error.dispatch.injEq] at outcome
    obtain ⟨rfl, rfl, rfl⟩ := outcome
    obtain ⟨span, handed, refused⟩ := launch_refused failed
    rw [(accepts_alike taken).bindSpan] at refused
    exact ⟨launch, by simp [order], rfl, rfl, span, handed, refused⟩

end Device

end OperatorGraph
