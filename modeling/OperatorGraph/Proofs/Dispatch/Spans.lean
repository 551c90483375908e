import OperatorGraph.Proofs.Dispatch.Excuses

set_option autoImplicit false

namespace OperatorGraph

namespace Launch

def bindings (launch : Launch) : List Binding :=
  launch.inputs ++ launch.outputs

/-- The ranges that a launch is handed. -/
def spans (launch : Launch) : List Span :=
  launch.bindings.map Binding.span ++ launch.scratch.toList

end Launch

namespace Dispatch

/-- Every dispatch is bound to ranges of the launch. -/
def Within (launch : Launch) (dispatches : List Dispatch) : Prop :=
  ∀ d ∈ dispatches, d.tensors ⊆ launch.spans

section

variable {α β : Type}

/-- A part of a plan whose answers are as described, and whose refusals are not the device's. -/
def Plans (holds : α → Prop) (planned : Except KernelError α) : Prop :=
  (∀ a, planned = .ok a → holds a) ∧ ∀ cause, planned ≠ .error (.device cause)

/-- A part of a plan that does not ask the device. -/
abbrev Offline (planned : Except KernelError α) : Prop :=
  Plans (fun _ => True) planned

variable {holds : α → Prop} {later : β → Prop}

theorem plans_ok {a : α} (here : holds a) : Plans holds (.ok a) :=
  ⟨fun _ same => Except.ok.inj same ▸ here, fun _ => by simp⟩

theorem plans_missing {launch : Launch} {reason : MissingKernel} :
    Plans holds (missing launch reason) :=
  ⟨fun _ => by simp [missing], fun _ => by simp [missing]⟩

theorem plans_reject {reason : Rejection} : Plans holds (reject reason) :=
  ⟨fun _ => by simp [reject], fun _ => by simp [reject]⟩

theorem plans_bind {first : Except KernelError α} {next : α → Except KernelError β}
    (here : Plans holds first) (rest : ∀ a, holds a → Plans later (next a)) :
    Plans later (first >>= next) := by
  constructor
  · intro b answered
    obtain ⟨a, atFirst, atNext⟩ := Answer.bind_eq_ok.mp answered
    exact (rest a (here.1 a atFirst)).1 b atNext
  · intro cause refused
    rcases Answer.bind_eq_error.mp refused with atFirst | ⟨a, atFirst, atNext⟩
    · exact here.2 cause atFirst
    · exact (rest a (here.1 a atFirst)).2 cause atNext

theorem plans_map {first : Except KernelError α} {f : α → β} (here : Plans holds first)
    (rest : ∀ a, holds a → later (f a)) : Plans later (f <$> first) := by
  rw [map_eq_pure_bind]
  exact plans_bind here fun a holds => plans_ok (rest a holds)

theorem plans_mapM {step : α → Except KernelError β} {list : List α}
    (each : ∀ a ∈ list, Plans later (step a)) :
    Plans (fun answers => ∀ b ∈ answers, later b) (list.mapM step) := by
  induction list with
  | nil => exact plans_ok (by simp)
  | cons first rest ih =>
    rw [List.mapM_cons]
    apply plans_bind (each first (by simp))
    intro b here
    apply plans_bind (ih fun a member => each a (by simp [member]))
    intro answers others
    exact plans_ok (List.forall_mem_cons.mpr ⟨here, others⟩)

theorem offline_bind {first : Except KernelError α} {next : α → Except KernelError β}
    (here : Offline first) (rest : ∀ a, Offline (next a)) : Offline (first >>= next) :=
  plans_bind here fun a _ => rest a

theorem offline_mapM {step : α → Except KernelError β} {list : List α}
    (each : ∀ a ∈ list, Offline (step a)) : Offline (list.mapM step) :=
  ⟨fun _ _ => trivial, (plans_mapM each).2⟩

theorem plans_item {items : List α} {index : Nat} : Plans (· ∈ items) (item items index) := by
  constructor
  · intro a found
    exact mem_of_item found
  · intro cause
    unfold item
    cases items[index]? <;> simp

theorem offline_exactly {value : Except Fault α} : Offline (exactly value) :=
  ⟨fun _ _ => trivial, fun _ => by cases value <;> simp [exactly, Except.mapError]⟩

theorem offline_dim {b : Binding} {axis : Nat} : Offline (dim b axis) :=
  ⟨fun _ _ => trivial, plans_item.2⟩

theorem offline_words {values : List Int} : Offline (words values) := by
  apply offline_mapM
  intro value _
  unfold word
  split
  · exact plans_ok trivial
  · exact plans_reject

theorem offline_expectF32 {launch : Launch} : Offline (expectF32 launch) := by
  unfold expectF32
  split
  · exact plans_missing
  · exact plans_ok trivial

theorem offline_bindableType {dtype : ElementType} : Offline (Shader.bindableType dtype) :=
  ⟨fun _ _ => trivial, fun _ => by
    cases dtype <;> simp [Shader.bindableType, ElementType.shaderType?]⟩

theorem offline_binding {dtypes : List ElementType} : Offline (Shader.Kernel.binding dtypes) := by
  unfold Shader.Kernel.binding
  generalize Shader.Kernel.empty = kernel
  induction dtypes generalizing kernel with
  | nil => exact plans_ok trivial
  | cons dtype rest ih =>
    rw [List.foldlM_cons]
    exact offline_bind (offline_bind offline_bindableType fun _ => plans_ok trivial) ih

theorem offline_floatKernel {count : Nat} : Offline (floatKernel count) :=
  offline_binding

end

section

variable {launch : Launch} {kernel : Shader.Kernel} {info : List UInt32}

theorem onBindings_within {bound : List Binding} (all : bound ⊆ launch.bindings) :
    (onBindings kernel info bound).tensors ⊆ launch.spans :=
  List.Subset.trans (List.map_subset _ all) (List.subset_append_left _ _)

theorem within_singleton {d : Dispatch} (inside : d.tensors ⊆ launch.spans) : Within launch [d] :=
  List.forall_mem_singleton.mpr inside

theorem plans_onBindings {bound : List Binding} (all : ∀ b ∈ bound, b ∈ launch.bindings) :
    Plans (Within launch) (.ok [onBindings kernel info bound]) :=
  plans_ok (within_singleton (onBindings_within all))

theorem plans_input {index : Nat} :
    Plans (· ∈ launch.bindings) (item launch.inputs index) :=
  ⟨fun _ found => List.mem_append_left _ (mem_of_item found), plans_item.2⟩

theorem plans_output {index : Nat} :
    Plans (· ∈ launch.bindings) (item launch.outputs index) :=
  ⟨fun _ found => List.mem_append_right _ (mem_of_item found), plans_item.2⟩

end

end Dispatch

open Dispatch

section

variable {launch : Launch}

theorem StridedCopy.plans_dispatch {c : StridedCopy} {source target : Binding}
    (reads : source ∈ launch.bindings) (writes : target ∈ launch.bindings) :
    Plans (fun d => d.tensors ⊆ launch.spans) (c.dispatch source target) := by
  apply plans_bind offline_exactly
  intro threads _
  apply plans_bind offline_words
  intro info _
  apply plans_bind offline_binding
  intro kernel _
  exact plans_ok (onBindings_within (by simp [reads, writes]))

theorem Strided.plans_plan (p : Strided) : Plans (Within launch) (p.plan launch) := by
  apply plans_bind plans_input
  intro x reads
  apply plans_bind plans_output
  intro out writes
  apply plans_bind (StridedCopy.plans_dispatch reads writes)
  intro d inside
  exact plans_ok (within_singleton inside)

theorem Transposition.plans_plan (perm : List Nat) :
    Plans (Within launch) (Transposition.plan perm launch) := by
  have offline_copy (s : Shape) : Offline (copy perm s) := by
    apply plans_bind (plans_mapM fun _ _ => plans_item)
    intro dims _
    apply plans_bind (plans_mapM fun _ _ => plans_item)
    intro strides _
    exact plans_ok trivial
  apply plans_bind plans_input
  intro x reads
  apply plans_bind (offline_copy _)
  intro c _
  apply plans_bind plans_output
  intro out writes
  apply plans_bind (StridedCopy.plans_dispatch reads writes)
  intro d inside
  exact plans_ok (within_singleton inside)

theorem Split.plans_plan (axis : Int) (count : Nat) :
    Plans (Within launch) (Split.plan axis count launch) := by
  have offline_copy (s : Shape) (axis : Nat) (chunk : Int) (part : Nat) :
      Offline (copy s axis chunk part) := by
    apply plans_bind plans_item
    intro stride _
    apply plans_bind offline_exactly
    intro start _
    apply plans_bind offline_exactly
    intro offset _
    exact plans_ok trivial
  apply plans_bind plans_input
  intro x reads
  split
  · exact plans_reject
  · apply plans_bind offline_dim
    intro whole _
    apply plans_bind offline_exactly
    intro chunk _
    apply plans_mapM
    intro (out, part) member
    apply plans_bind (offline_copy _ _ _ _)
    intro c _
    have writes : out ∈ launch.outputs := List.fst_mem_of_mem_zipIdx member
    exact StridedCopy.plans_dispatch reads (List.mem_append_right _ writes)

theorem Concat.plans_plan (axis : Int) : Plans (Within launch) (Concat.plan axis launch) := by
  have offline_joined (axis : Nat) (a b : Shape) : Offline (joined axis a b) := by
    apply offline_bind (offline_mapM ?_)
    · intro dims
      exact plans_ok trivial
    · intro ((x, y), position) _
      dsimp only
      split
      · exact offline_exactly
      · exact plans_ok trivial
  apply plans_bind plans_input
  intro a readsA
  apply plans_bind plans_input
  intro b readsB
  apply plans_bind plans_output
  intro out writes
  split
  · exact plans_reject
  · apply plans_bind (offline_joined _ _ _)
    intro whole _
    apply plans_bind (StridedCopy.plans_dispatch readsA writes)
    intro first insideA
    apply plans_bind offline_dim
    intro size _
    apply plans_bind plans_item
    intro stride _
    apply plans_bind offline_exactly
    intro offset _
    apply plans_bind (StridedCopy.plans_dispatch readsB writes)
    intro second insideB
    exact plans_ok (by simp [Within, insideA, insideB])

theorem Elementwise.plans_plan (kind : Elementwise) :
    Plans (Within launch) (kind.plan launch) := by
  have broadcast (op : Shader.BinaryOp) {x y out : Binding} (readsX : x ∈ launch.bindings)
      (readsY : y ∈ launch.bindings) (writes : out ∈ launch.bindings) :
      Plans (Within launch) (planBroadcast op x y out) := by
    unfold planBroadcast
    dsimp only
    split
    · exact plans_reject
    · apply plans_bind offline_words
      intro info _
      apply plans_bind offline_binding
      intro kernel _
      exact plans_onBindings (by simp [readsX, readsY, writes])
  apply plans_bind plans_input
  intro x reads
  apply plans_bind plans_output
  intro out writes
  cases kind with
  | add | sub | mul | realDiv =>
    apply plans_bind plans_input
    intro y readsY
    exact broadcast _ reads readsY writes
  | scale factor =>
    apply plans_bind offline_expectF32
    intro _ _
    apply plans_bind offline_binding
    intro kernel _
    apply plans_bind offline_words
    intro info _
    exact plans_onBindings (by simp [reads, writes])
  | cast _ =>
    apply plans_bind offline_binding
    intro kernel _
    apply plans_bind offline_bindableType
    intro type _
    apply plans_bind offline_words
    intro info _
    exact plans_onBindings (by simp [reads, writes])

theorem Activation.plans_plan (kind : Activation) : Plans (Within launch) (kind.plan launch) := by
  apply plans_bind offline_expectF32
  intro _ _
  apply plans_bind plans_input
  intro x reads
  apply plans_bind plans_output
  intro out writes
  apply plans_bind offline_binding
  intro kernel _
  dsimp only
  split
  all_goals
    apply plans_bind offline_words
    intro info _
    exact plans_onBindings (by simp [reads, writes])

theorem Gather.plans_plan (axis : Int) : Plans (Within launch) (Gather.plan axis launch) := by
  apply plans_bind plans_input
  intro table readsTable
  apply plans_bind plans_input
  intro indices readsIndices
  apply plans_bind plans_output
  intro out writes
  split
  · exact plans_missing
  split
  · exact plans_reject
  · apply plans_bind offline_exactly
    intro outer _
    apply plans_bind offline_exactly
    intro inner _
    apply plans_bind offline_exactly
    intro threads _
    apply plans_bind offline_dim
    intro size _
    apply plans_bind offline_words
    intro info _
    apply plans_bind offline_binding
    intro kernel _
    apply plans_bind offline_bindableType
    intro type _
    exact plans_onBindings (by simp [readsTable, readsIndices, writes])

theorem MatMul.plans_plan (p : MatMul) : Plans (Within launch) (p.plan launch) := by
  apply plans_bind offline_expectF32
  intro _ _
  apply plans_bind plans_input
  intro a readsA
  apply plans_bind plans_input
  intro b readsB
  split
  · exact plans_reject
  · apply plans_bind offline_exactly
    intro threads _
    apply plans_bind offline_words
    intro info _
    have finish (bias : List Binding) (readsBias : bias ⊆ launch.bindings) :
        Plans (Within launch) (do
          let out ← item launch.outputs 0
          let tensors := [a, b] ++ bias ++ [out]
          let kernel ← floatKernel tensors.length
          return [onBindings (kernel.withBody p.body) info tensors]) := by
      apply plans_bind plans_output
      intro out writes
      apply plans_bind offline_floatKernel
      intro kernel _
      apply plans_onBindings
      intro c member
      simp only [List.mem_append, List.mem_cons, List.not_mem_nil, or_false] at member
      rcases member with ((rfl | rfl) | other) | rfl
      · exact readsA
      · exact readsB
      · exact readsBias other
      · exact writes
    have one {bias : Binding} (reads : bias ∈ launch.bindings) : [bias] ⊆ launch.bindings := by
      simpa using reads
    dsimp only
    split
    · exact plans_bind (plans_map plans_input fun _ => one) fun bias => finish bias
    · exact finish [] (List.nil_subset _)

theorem LayerNorm.plans_plan (p : LayerNorm) : Plans (Within launch) (p.plan launch) := by
  have outputs_bound : Plans (· ⊆ launch.bindings) (p.outputs launch) := by
    apply plans_bind plans_output
    intro out writes
    split
    · apply plans_bind plans_output
      intro mean writesMean
      apply plans_bind plans_output
      intro rstd writesRstd
      exact plans_ok (by simp [writes, writesMean, writesRstd])
    · exact plans_ok (by simp [writes])
  apply plans_bind offline_expectF32
  intro _ _
  apply plans_bind plans_input
  intro x readsX
  apply plans_bind plans_input
  intro gain readsGain
  apply plans_bind plans_input
  intro bias readsBias
  dsimp only
  split
  · split
    · exact plans_missing
    · apply plans_bind offline_exactly
      intro rows _
      apply plans_bind offline_exactly
      intro cols _
      apply plans_bind offline_words
      intro info _
      apply plans_bind outputs_bound
      intro outs writes
      apply plans_bind offline_floatKernel
      intro kernel _
      apply plans_onBindings
      intro b member
      rcases List.mem_append.mp member with read | written
      · simp only [List.mem_cons, List.not_mem_nil, or_false] at read
        rcases read with rfl | rfl | rfl
        · exact readsX
        · exact readsGain
        · exact readsBias
      · exact writes written
  · exact plans_reject

theorem RmsNorm.plans_plan (epsilon : Scalar) :
    Plans (Within launch) (RmsNorm.plan epsilon launch) := by
  apply plans_bind offline_expectF32
  intro _ _
  apply plans_bind plans_input
  intro x readsX
  apply plans_bind plans_input
  intro gain readsGain
  apply plans_bind plans_output
  intro out writes
  apply plans_bind offline_words
  intro info _
  apply plans_bind offline_floatKernel
  intro kernel _
  exact plans_onBindings (by simp [readsX, readsGain, writes])

theorem Softmax.plans_plan (axis : Int) : Plans (Within launch) (Softmax.plan axis launch) := by
  apply plans_bind offline_expectF32
  intro _ _
  apply plans_bind plans_input
  intro x reads
  apply plans_bind plans_output
  intro out writes
  dsimp only
  split
  · exact plans_missing
  · apply plans_bind offline_words
    intro info _
    apply plans_bind offline_floatKernel
    intro kernel _
    exact plans_onBindings (by simp [reads, writes])

theorem Rope.plans_plan (rotaryCoeff : Int) :
    Plans (Within launch) (Rope.plan rotaryCoeff launch) := by
  have rotation (headDim chunk : Int) {x cos sin out : Binding} (readsX : x ∈ launch.bindings)
      (readsCos : cos ∈ launch.bindings) (readsSin : sin ∈ launch.bindings)
      (writes : out ∈ launch.bindings) :
      Plans (fun d => d.tensors ⊆ launch.spans) (dispatch headDim chunk x cos sin out) := by
    apply plans_bind offline_dim
    intro tokens _
    apply plans_bind offline_dim
    intro hidden _
    apply plans_bind offline_exactly
    intro heads _
    apply plans_bind offline_exactly
    intro threads _
    apply plans_bind offline_words
    intro info _
    apply plans_bind offline_floatKernel
    intro kernel _
    exact plans_ok (onBindings_within (by simp [readsX, readsCos, readsSin, writes]))
  apply plans_bind offline_expectF32
  intro _ _
  apply plans_bind plans_input
  intro q readsQ
  apply plans_bind plans_input
  intro k readsK
  apply plans_bind plans_input
  intro cos readsCos
  apply plans_bind plans_input
  intro sin readsSin
  apply plans_bind offline_dim
  intro headDim _
  split
  · exact plans_missing
  · apply plans_bind offline_exactly
    intro chunk _
    apply plans_bind plans_output
    intro qOut writesQ
    apply plans_bind plans_output
    intro kOut writesK
    apply plans_bind (rotation _ _ readsQ readsCos readsSin writesQ)
    intro first insideQ
    apply plans_bind (rotation _ _ readsK readsCos readsSin writesK)
    intro second insideK
    exact plans_ok (by simp [Within, insideQ, insideK])

theorem SelfAttention.plans_plan (p : SelfAttention) : Plans (Within launch) (p.plan launch) := by
  apply plans_bind offline_expectF32
  intro _ _
  apply plans_bind plans_input
  intro q readsQ
  apply plans_bind plans_input
  intro k readsK
  apply plans_bind plans_input
  intro v readsV
  apply plans_bind plans_output
  intro out writes
  split
  · exact plans_reject
  · rename_i scratch given
    apply plans_bind offline_dim
    intro width _
    apply plans_bind offline_exactly
    intro headDim _
    apply plans_bind offline_exactly
    intro threads _
    apply plans_bind offline_words
    intro sizes _
    apply plans_bind offline_words
    intro lengths _
    apply plans_bind offline_floatKernel
    intro kernel _
    have handed : scratch ∈ launch.spans := by simp [Launch.spans, given]
    have bound {b : Binding} (member : b ∈ launch.bindings) : b.span ∈ launch.spans :=
      List.mem_append_left _ (List.mem_map_of_mem member)
    exact plans_ok (within_singleton
      (by simp [bound readsQ, bound readsK, bound readsV, bound writes, handed]))

/-- A plan binds ranges of its launch only. -/
theorem Launch.plans_plan (launch : Launch) : Plans (Within launch) launch.plan := by
  unfold plan
  split
  · exact plans_missing
  split
  · exact plans_ok (by simp [Within])
  unfold planFamily
  cases launch.param with
  | elementwise kind => exact kind.plans_plan
  | layerNorm p => exact p.plans_plan
  | rmsNorm epsilon => exact RmsNorm.plans_plan epsilon
  | matMul p => exact p.plans_plan
  | activation kind => exact kind.plans_plan
  | softmax axis => exact Softmax.plans_plan axis
  | asStrided p => exact p.plans_plan
  | transpose perm => exact Transposition.plans_plan perm
  | relayout _ => exact plans_missing
  | split axis count => exact Split.plans_plan axis count
  | concat axis => exact Concat.plans_plan axis
  | gather axis => exact Gather.plans_plan axis
  | rope rotaryCoeff => exact Rope.plans_plan rotaryCoeff
  | selfAttention p => exact p.plans_plan

end

end OperatorGraph
