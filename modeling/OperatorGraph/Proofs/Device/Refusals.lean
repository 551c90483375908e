import OperatorGraph.Proofs.Device.Recording
import OperatorGraph.Proofs.Dispatch.Programs

set_option autoImplicit false

namespace OperatorGraph

/-- A refusal that the registry answers. -/
def KernelError.IsAnswer (reason : KernelError) : Prop :=
  ∀ fault, reason ≠ .fault fault

namespace Device

/-- What a dispatch adds to the stream: nothing if it has no threads. -/
def entries (d : Device) (dispatch : Dispatch) : Except DeviceError (List Recorded) :=
  match dispatch.info with
  | [] => .ok []
  | threads :: _ =>
    if threads = 0 then .ok []
    else do
      let bindings ← dispatch.tensors.mapM d.bindSpan
      return [⟨Shader.Kernel.workgroups threads.toNat, dispatch.info, bindings⟩]

theorem Alike.entries {d e : Device} (alike : d.Alike e) (dispatch : Dispatch) :
    d.entries dispatch = e.entries dispatch := by
  have same : d.bindSpan = e.bindSpan := funext alike.bindSpan
  simp only [Device.entries, same]

theorem compile_stream (d : Device) (kernel : Shader.Kernel) :
    (d.compile kernel).state.stream = d.stream := by
  unfold compile
  dsimp only
  split
  · rfl
  split
  · rfl
  · rfl

section

variable {node : String} {d : Device} {dispatch : Dispatch}

/-- A dispatch that is recorded enters the stream, if it has threads. -/
theorem record_entries {done : Unit} (recorded : (record node d dispatch).result = .ok done) :
    ∃ entered, d.entries dispatch = .ok entered ∧
      (record node d dispatch).state.stream = d.stream ++ entered := by
  unfold record at recorded ⊢
  unfold entries
  cases parameters : dispatch.info with
  | nil => simp [parameters, Outcome.failed] at recorded
  | cons threads rest =>
    simp only [parameters] at recorded
    dsimp only
    by_cases idle : threads = 0
    · exact ⟨[], by simp [idle], by simp [idle, Outcome.done]⟩
    · simp only [if_neg idle] at recorded ⊢
      cases bound : dispatch.tensors.mapM d.bindSpan with
      | error refusal => simp [bound, Outcome.failed] at recorded
      | ok bindings =>
        simp only [bound] at recorded
        obtain ⟨_, compiled, -⟩ := Outcome.andThen_eq_ok.mp recorded
        refine ⟨_, rfl, ?_⟩
        simp only [Outcome.andThen_of_ok _ compiled, enqueue, compile_stream]

/-- A dispatch that is refused leaves no trace. -/
theorem record_refuses {reason : KernelError} (answered : reason.IsAnswer)
    (failed : (record node d dispatch).result = .error reason) :
    ∃ cause, reason = .device cause ∧ d.entries dispatch = .error cause ∧
      (record node d dispatch).state = d := by
  unfold record at failed ⊢
  unfold entries
  cases parameters : dispatch.info with
  | nil =>
    simp only [parameters, Outcome.failed, Except.error.injEq] at failed
    exact absurd failed.symm (answered _)
  | cons threads rest =>
    simp only [parameters] at failed
    dsimp only
    by_cases idle : threads = 0
    · simp [idle, Outcome.done] at failed
    · simp only [if_neg idle] at failed ⊢
      cases bound : dispatch.tensors.mapM d.bindSpan with
      | error refusal =>
        simp only [bound, Outcome.failed, Except.error.injEq] at failed
        exact ⟨refusal, failed.symm, rfl, rfl⟩
      | ok bindings =>
        simp only [bound] at failed
        obtain ⟨fault, rfl⟩ := compile_enqueue_fault failed
        exact absurd rfl (answered fault)

end

/-- A run of dispatches that is refused has recorded those before the refused one, and it alone is
the first that cannot be. -/
theorem forEach_record_refused {node : String} {reason : KernelError} (answered : reason.IsAnswer)
    {dispatches : List Dispatch} {d : Device}
    (failed : (Outcome.forEach (record node) d dispatches).result = .error reason) :
    ∃ before dispatch after cause entered, dispatches = before ++ dispatch :: after ∧
      reason = .device cause ∧ before.mapM d.entries = .ok entered ∧
        d.entries dispatch = .error cause ∧
          (Outcome.forEach (record node) d dispatches).state.stream =
            d.stream ++ entered.flatten := by
  induction dispatches generalizing d with
  | nil => simp [Outcome.done] at failed
  | cons first rest ih =>
    rw [Outcome.forEach_cons] at failed ⊢
    cases recorded : (record node d first).result with
    | error other =>
      rw [Outcome.andThen_of_error _ recorded] at failed ⊢
      obtain rfl : other = reason := Except.error.inj failed
      obtain ⟨cause, same, refused, kept⟩ := record_refuses answered recorded
      exact ⟨[], first, rest, cause, [], rfl, same, rfl, refused, by simp [kept]⟩
    | ok _ =>
      rw [Outcome.andThen_of_ok _ recorded] at failed ⊢
      obtain ⟨here, entering, stream⟩ := record_entries recorded
      -- Recording resolves nothing anew: what is refused later was refused from the beginning.
      have alike := record_alike node d first
      obtain ⟨before, dispatch, after, cause, entered, order, same, entries, refused, left⟩ :=
        ih failed
      refine ⟨first :: before, dispatch, after, cause, here :: entered, ?_, same, ?_, ?_, ?_⟩
      · rw [order, List.cons_append]
      · rw [List.mapM_cons, entering, ← funext alike.entries, entries]
        rfl
      · rw [← alike.entries, refused]
      · dsimp only
        rw [left, stream, List.flatten_cons, List.append_assoc]

/-- A launch that is refused takes nothing back. If it has no plan, then the device is as before.
Otherwise one of its dispatches cannot be bound, and the stream has got what the ones before it add
to it, in order. So it is as before if these have no threads, as where the launch is not made of
several dispatches. -/
theorem refused_launch_stream {launch : Launch} {d : Device} {reason : KernelError}
    (answered : reason.IsAnswer) (failed : (registry.launch launch d).result = .error reason) :
    (registry.launch launch d).state.Alike d ∧
    ((launch.plan = .error reason ∧ (registry.launch launch d).state = d) ∨
      ∃ before dispatch after cause entered, launch.plan = .ok (before ++ dispatch :: after) ∧
        reason = .device cause ∧ before.mapM d.entries = .ok entered ∧
          d.entries dispatch = .error cause ∧
            (registry.launch launch d).state.stream = d.stream ++ entered.flatten) ∧
    (launch.param.isComposite = false → (registry.launch launch d).state.stream = d.stream) := by
  refine ⟨launch_alike launch d, ?_⟩
  simp only [registry] at failed ⊢
  cases planned : launch.plan with
  | error refusal =>
    simp only [planned, Outcome.failed, Except.error.injEq] at failed
    exact ⟨.inl ⟨by rw [failed], rfl⟩, fun _ => rfl⟩
  | ok dispatches =>
    simp only [planned] at failed
    dsimp only
    obtain ⟨before, dispatch, after, cause, entered, order, same, entries, refused, left⟩ :=
      forEach_record_refused answered failed
    refine ⟨.inr ⟨before, dispatch, after, cause, entered, by rw [order], same, entries, refused,
      left⟩, fun single => ?_⟩
    have few := (Launch.plan_assembles planned).2 single
    obtain rfl : before = [] := by
      rw [order, List.length_append, List.length_cons] at few
      exact List.eq_nil_of_length_eq_zero (by omega)
    obtain rfl : entered = [] := (Except.ok.inj entries).symm
    rw [left, List.flatten_nil, List.append_nil]

/-- A device with two buffers, of 32 and 16 bytes. -/
def twoBuffers : Device :=
  ⟨.host, ((DeviceMemory.empty.alloc 32).state.alloc 16).state, [], []⟩

/-- A split into two rows, the second of which is to be written where no buffer is. -/
def strayingSplit : Launch where
  node := "split"
  param := .split 0 2
  inputs := [⟨.rowMajor .f32 ⟨[2, 4]⟩, 0x10000, 32⟩]
  outputs := [⟨.rowMajor .f32 ⟨[1, 4]⟩, 0x10100, 16⟩, ⟨.rowMajor .f32 ⟨[1, 4]⟩, 0x1000, 16⟩]
  scratch := none

theorem strayingSplit_refused : (registry.launch strayingSplit twoBuffers).result =
    .error (.device (.unknownAddress 0x1000)) := by
  decide +kernel

theorem strayingSplit_records :
    (registry.launch strayingSplit twoBuffers).state.stream.length = 1 := by
  decide +kernel

/-- The first row of a split stays on the stream when the second cannot be bound. -/
theorem straying_split_stream :
    let left := (registry.launch strayingSplit twoBuffers).state
    left.Alike twoBuffers ∧ ∃ before dispatch after cause entered,
      strayingSplit.plan = .ok (before ++ dispatch :: after) ∧
        before.mapM twoBuffers.entries = .ok entered ∧
          twoBuffers.entries dispatch = .error cause ∧ left.stream = entered.flatten ∧
            left.stream ≠ [] := by
  intro left
  have stays : left.stream ≠ [] := List.ne_nil_of_length_pos (by rw [strayingSplit_records]; decide)
  obtain ⟨alike, either, -⟩ := refused_launch_stream (fun _ => by simp) strayingSplit_refused
  rcases either with ⟨-, same⟩ | ⟨before, dispatch, after, cause, entered, order, -, entries,
    refused, stream⟩
  · exact absurd (congrArg Device.stream same) stays
  · exact ⟨alike, before, dispatch, after, cause, entered, order, entries, refused, stream, stays⟩

/-- A launch that is refused may leave more on the stream than it found. -/
theorem refused_launch_may_record : ¬ ∀ (launch : Launch) (d : Device) (reason : KernelError),
    reason.IsAnswer → (registry.launch launch d).result = .error reason →
      (registry.launch launch d).state.stream = d.stream := by
  intro unchanged
  have same := unchanged strayingSplit twoBuffers _ (fun _ => by simp) strayingSplit_refused
  have one := strayingSplit_records
  rw [same] at one
  simp [twoBuffers] at one

end Device

end OperatorGraph
