import OperatorGraph.Dispatch.Plan
import OperatorGraph.Proofs.Products

set_option autoImplicit false

namespace OperatorGraph

namespace Launch

/-- The launch may be declined for this reason. -/
inductive Excuses (launch : Launch) : KernelError → Prop where
  /-- There is no kernel for it. -/
  | unsupported (family : Family) (reason : MissingKernel) :
      launch.Excuses (.unsupported family reason)
  /-- A launch parameter does not fit 32 bits. -/
  | wideWord {value : Int} (wide : value < 0 ∨ 0x1_0000_0000 ≤ value) :
      launch.Excuses (.rejected (.wideWord value))
  /-- The elements of a tensor cannot be bound. -/
  | unbindable {b : Binding} (bound : b ∈ launch.inputs ++ launch.outputs)
      (other : b.desc.dtype ≠ .f32 ∧ b.desc.dtype ≠ .i32) :
      launch.Excuses (.rejected (.unbindable b.desc.dtype))

/-- If part of a plan fails, the launch is excused. -/
def Excused (launch : Launch) {α : Type} (planned : Except KernelError α) : Prop :=
  ∀ refusal, planned = .error refusal → launch.Excuses refusal

end Launch

open Launch

namespace Dispatch

section

variable {α β : Type}

@[simp] theorem item_eq_ok {items : List α} {index : Nat} {a : α} :
    item items index = .ok a ↔ items[index]? = some a := by
  unfold item
  cases items[index]? <;> simp

@[simp] theorem dim_eq_ok {b : Binding} {axis : Nat} {size : Int} :
    dim b axis = .ok size ↔ b.desc.shape.dims[axis]? = some size := by
  simp [dim]

@[simp] theorem exactly_eq_ok {value : Except Fault α} {a : α} :
    exactly value = .ok a ↔ value = .ok a := by
  simp [exactly]

theorem word_eq_ok {value : Int} {result : UInt32} : word value = .ok result ↔
    (0 ≤ value ∧ value < 0x1_0000_0000) ∧ result = value.toNat.toUInt32 := by
  unfold word
  by_cases small : 0 ≤ value ∧ value < 0x1_0000_0000
  · simp [small, eq_comm]
  · simp [small, reject]

/-- Launch parameters are integers of 32 bits, and are handed over as they are. -/
theorem words_eq_ok {values : List Int} {results : List UInt32} : words values = .ok results ↔
    (∀ value ∈ values, 0 ≤ value ∧ value < 0x1_0000_0000) ∧
      results = values.map fun value => value.toNat.toUInt32 := by
  induction values generalizing results with
  | nil => simp [words, pure, Except.pure, eq_comm]
  | cons value rest ih =>
    have later := @ih
    unfold words at later
    simp only [words, List.mapM_cons, Answer.bind_eq_ok, Answer.pure_eq_ok, word_eq_ok, later,
      List.forall_mem_cons, List.map_cons]
    constructor
    · rintro ⟨_, ⟨small, rfl⟩, _, ⟨others, rfl⟩, rfl⟩
      exact ⟨⟨small, others⟩, rfl⟩
    · rintro ⟨⟨small, others⟩, rfl⟩
      exact ⟨_, ⟨small, rfl⟩, _, ⟨others, rfl⟩, rfl⟩

variable {launch : Launch}

theorem excused_ok (a : α) : launch.Excused (.ok a : Except KernelError α) := by
  intro refusal failed
  simp at failed

theorem excused_missing (launch : Launch) (reason : MissingKernel) :
    launch.Excused (missing launch reason : Except KernelError α) := by
  intro refusal failed
  rw [← Except.error.inj failed]
  exact .unsupported _ reason

theorem excused_bind {first : Except KernelError α} {next : α → Except KernelError β}
    (here : launch.Excused first) (later : ∀ a, first = .ok a → launch.Excused (next a)) :
    launch.Excused (first >>= next) := by
  intro refusal failed
  rcases Answer.bind_eq_error.mp failed with refused | ⟨a, answered, refused⟩
  · exact here refusal refused
  · exact later a answered refusal refused

theorem excused_bind_ok {first : Except KernelError α} {next : α → Except KernelError β} {a : α}
    (answered : first = .ok a) (later : launch.Excused (next a)) :
    launch.Excused (first >>= next) := by
  rw [answered]
  exact later

/-- Steps for the entries of a list, each of which may rely on those before it. -/
theorem excused_mapM {step : α → Except KernelError β} {list : List α}
    (each : ∀ (index : Nat) (a : α), list[index]? = some a →
      (∀ earlier < index, ∀ other, list[earlier]? = some other → ∃ b, step other = .ok b) →
      launch.Excused (step a)) : launch.Excused (list.mapM step) := by
  induction list with
  | nil => exact excused_ok []
  | cons first rest ih =>
    rw [List.mapM_cons]
    refine excused_bind (each 0 first rfl fun earlier before => absurd before (by omega)) ?_
    intro b answered
    refine excused_bind (ih fun index a found before => ?_) fun answers _ => excused_ok _
    refine each (index + 1) a found fun earlier small other found => ?_
    cases earlier with
    | zero =>
      obtain rfl : first = other := by simpa using found
      exact ⟨b, answered⟩
    | succ earlier => exact before earlier (by omega) other (by simpa using found)

end

section

variable {launch : Launch}

theorem excused_word (value : Int) : launch.Excused (word value) := by
  intro refusal failed
  unfold word at failed
  split at failed
  · simp at failed
  · rename_i wide
    rw [← Except.error.inj failed]
    exact .wideWord (by omega)

theorem excused_words (values : List Int) : launch.Excused (words values) :=
  excused_mapM fun _ value _ _ => excused_word value

theorem excused_expectF32 : launch.Excused (expectF32 launch) := by
  unfold expectF32
  split
  · exact excused_missing launch _
  · exact excused_ok ()

/-- Kernels take floats, indices and what the launch brings. -/
def Binds (launch : Launch) (dtype : ElementType) : Prop :=
  dtype = .f32 ∨ dtype = .i32 ∨ ∃ b ∈ launch.inputs ++ launch.outputs, b.desc.dtype = dtype

theorem excused_bindableType {dtype : ElementType} (binds : Binds launch dtype) :
    launch.Excused (Shader.bindableType dtype) := by
  intro refusal failed
  have other : dtype ≠ .f32 ∧ dtype ≠ .i32 := by
    constructor <;>
      · rintro rfl
        simp [Shader.bindableType, ElementType.shaderType?] at failed
  have reason : refusal = .rejected (.unbindable dtype) := by
    cases dtype <;> first
      | exact (Except.error.inj failed).symm
      | simp [Shader.bindableType, ElementType.shaderType?] at failed
  rcases binds with float | integer | ⟨b, bound, same⟩
  · exact absurd float other.1
  · exact absurd integer other.2
  · rw [reason, ← same]
    exact .unbindable bound (same ▸ other)

theorem excused_binding {dtypes : List ElementType} (binds : ∀ dtype ∈ dtypes, Binds launch dtype) :
    launch.Excused (Shader.Kernel.binding dtypes) := by
  have from_ (kernel : Shader.Kernel) :
      launch.Excused (dtypes.foldlM Shader.Kernel.bind kernel) := by
    induction dtypes generalizing kernel with
    | nil => exact excused_ok kernel
    | cons dtype rest ih =>
      rw [List.foldlM_cons]
      refine excused_bind ?_ fun next _ =>
        ih (fun other member => binds other (by simp [member])) next
      exact excused_bind (excused_bindableType (binds dtype (by simp))) fun _ _ => excused_ok _
  exact from_ Shader.Kernel.empty

theorem excused_floatKernel (count : Nat) : launch.Excused (floatKernel count) :=
  excused_binding fun _ member => .inl (List.eq_of_mem_replicate member)

end

section

variable {launch : Launch}

theorem item_answers {α : Type} (items : List α) (index : Nat) (inside : index < items.length) :
    ∃ a, item items index = .ok a :=
  ⟨_, item_eq_ok.mpr (List.getElem?_eq_getElem inside)⟩

theorem input_of_desc {descs : List TensorDesc} (read : launch.inputs.map Binding.desc = descs)
    (index : Nat) {desc : TensorDesc} (found : descs[index]? = some desc) :
    ∃ b, item launch.inputs index = .ok b ∧ b.desc = desc := by
  rw [← read, List.getElem?_map] at found
  obtain ⟨b, bound, same⟩ := Option.map_eq_some_iff.mp found
  exact ⟨b, item_eq_ok.mpr bound, same⟩

theorem binds_input {index : Nat} {b : Binding} (bound : item launch.inputs index = .ok b) :
    Binds launch b.desc.dtype :=
  .inr (.inr ⟨b, List.mem_append_left _ (List.mem_of_getElem? (item_eq_ok.mp bound)), rfl⟩)

theorem binds_output {b : Binding} (bound : b ∈ launch.outputs) : Binds launch b.desc.dtype :=
  .inr (.inr ⟨b, List.mem_append_right _ bound, rfl⟩)

theorem mem_of_item {α : Type} {items : List α} {index : Nat} {a : α}
    (found : item items index = .ok a) : a ∈ items :=
  List.mem_of_getElem? (item_eq_ok.mp found)

end

end Dispatch

end OperatorGraph
