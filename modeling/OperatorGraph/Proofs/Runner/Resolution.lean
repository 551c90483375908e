import OperatorGraph.Proofs.Graph.Topology

set_option autoImplicit false

namespace OperatorGraph

namespace Node

theorem resolve_unresolved (n : Node) (g : Graph) (checkViews : Bool) :
    n.unresolved.resolve g.unresolved checkViews = n.resolve g checkViews := rfl

end Node

namespace Graph

section

variable (g : Graph) (change : Node → Node)

theorem mapNodes_fill (id : TensorId) (tensor : Tensor) :
    (g.fill id tensor).mapNodes change = (g.mapNodes change).fill id tensor := by
  cases id <;> rfl

theorem getElem?_mapNodes (position : Nat) :
    (g.mapNodes change).nodes[position]? = g.nodes[position]?.map change := by
  simp only [mapNodes, List.getElem?_map]

theorem bindFrom_mapNodes (side : Side) (tensors : List Tensor) (index : Nat) :
    bindFrom side (g.mapNodes change) index tensors =
      ((bindFrom side g index tensors).1.mapNodes change, (bindFrom side g index tensors).2) := by
  induction tensors generalizing g index with
  | nil => rfl
  | cons tensor rest ih =>
    by_cases overflows : tensor.desc.overflows
    · simp only [bindFrom, overflows, if_true]
      rfl
    · simp only [bindFrom, overflows, Bool.false_eq_true, if_false, ← mapNodes_fill, ih]

theorem bindSide_mapNodes (side : Side) (tensors : List Tensor) :
    (g.mapNodes change).bindSide side tensors =
      ((g.bindSide side tensors).1.mapNodes change, (g.bindSide side tensors).2) := by
  have count : (g.mapNodes change).checkCount side tensors = g.checkCount side tensors := by
    cases side <;> rfl
  simp only [bindSide, count]
  split
  · exact bindFrom_mapNodes g change side tensors 0
  · rfl

theorem bind_mapNodes (pack : Pack) :
    (g.mapNodes change).bind pack = ((g.bind pack).1.mapNodes change, (g.bind pack).2) := by
  simp only [bind, bindSide_mapNodes]
  cases bound : g.bindSide .input pack.inputs with
  | mk next result =>
    cases result with
    | error refusal => rfl
    | ok _ => simp only [bindSide_mapNodes]

theorem placeFrom_mapNodes (node : String) (family : Family)
    (placed : List (TensorId × TensorDesc)) (index : Nat) :
    placeFrom node family (g.mapNodes change) index placed =
      ((placeFrom node family g index placed).1.mapNodes change,
        (placeFrom node family g index placed).2) := by
  induction placed generalizing g index with
  | nil => rfl
  | cons entry rest ih =>
    obtain ⟨id, desc⟩ := entry
    have same : (g.mapNodes change).boundOutput? id = g.boundOutput? id := by
      cases id <;> rfl
    cases bound : g.boundOutput? id with
    | none => simp only [placeFrom, same, bound, ← mapNodes_fill, ih]
    | some kept =>
      simp only [placeFrom, same, bound]
      split
      · exact ih g (index + 1)
      · rfl

end

@[simp] theorem unresolved_unresolved (g : Graph) : g.unresolved.unresolved = g.unresolved := by
  simp only [unresolved, mapNodes, List.map_map]
  rfl

@[simp] theorem unresolved_settle (g : Graph) (position : Nat) (r : Resolution) :
    (g.settle position r).unresolved = g.unresolved := by
  have kept := map_modify_of_keeps g.nodes position
    (fun n => { n with effective := r.param, resolvedInputs := r.inputs }) Node.unresolved
    fun _ => rfl
  simp only [unresolved, mapNodes, settle, kept]

theorem getElem?_unresolved (g : Graph) (position : Nat) :
    g.unresolved.nodes[position]? = g.nodes[position]?.map Node.unresolved :=
  g.getElem?_mapNodes Node.unresolved position

theorem resolveAt_unresolved (checkViews : Bool) (g : Graph) (position : Nat) :
    (resolveAt checkViews g.unresolved position).within unresolved =
      (resolveAt checkViews g position).within unresolved := by
  simp only [resolveAt, getElem?_unresolved]
  cases found : g.nodes[position]? with
  | none => simp only [Option.map_none, Outcome.done, Outcome.within, unresolved_unresolved]
  | some n =>
    simp only [Option.map_some, Node.resolve_unresolved]
    cases resolution : n.resolve g checkViews with
    | error refusal => simp only [Outcome.failed, Outcome.within, unresolved_unresolved]
    | ok r =>
      have placings : placeFrom n.name r.param.family g.unresolved 0 (n.outputs.zip r.outputs) =
          ((placeFrom n.name r.param.family g 0 (n.outputs.zip r.outputs)).1.unresolved,
            (placeFrom n.name r.param.family g 0 (n.outputs.zip r.outputs)).2) :=
        placeFrom_mapNodes g Node.unresolved n.name r.param.family _ 0
      simp only [Node.unresolved, placings]
      cases placing : placeFrom n.name r.param.family g 0 (n.outputs.zip r.outputs) with
      | mk placed result =>
        cases result with
        | error refusal => simp only [Outcome.failed, Outcome.within, unresolved_unresolved]
        | ok _ =>
          simp only [Outcome.within, unresolved_settle, unresolved_unresolved]
          rfl

/-- Graphs that differ in resolved nodes at most resolve a node alike. -/
theorem resolveAt_congr {s t : Graph} (checkViews : Bool) (position : Nat)
    (alike : s.unresolved = t.unresolved) :
    (resolveAt checkViews s position).within unresolved =
      (resolveAt checkViews t position).within unresolved := by
  rw [← resolveAt_unresolved checkViews s, ← resolveAt_unresolved checkViews t, alike]

theorem resolve_congr {s t : Graph} (checkViews : Bool) (alike : s.unresolved = t.unresolved) :
    (resolve checkViews s).within unresolved = (resolve checkViews t).within unresolved := by
  have sameLength : s.nodes.length = t.nodes.length := by
    have nodes := congrArg (fun g : Graph => g.nodes.length) alike
    simpa only [unresolved, mapNodes, List.length_map] using nodes
  simp only [resolve, sameLength]
  exact Outcome.forEach_within (fun s t position alike => resolveAt_congr checkViews position alike)
    _ s t alike

theorem blank_bindFrom (side : Side) (tensors : List Tensor) (g : Graph) (index : Nat) :
    (bindFrom side g index tensors).1.blank = g.blank := by
  induction tensors generalizing g index with
  | nil => rfl
  | cons tensor rest ih =>
    by_cases overflows : tensor.desc.overflows
    · simp only [bindFrom, overflows, if_true]
    · simp only [bindFrom, overflows, Bool.false_eq_true, if_false, ih, blank_fill]

theorem blank_bindSide (g : Graph) (side : Side) (tensors : List Tensor) :
    (g.bindSide side tensors).1.blank = g.blank := by
  simp only [bindSide]
  split
  · exact blank_bindFrom side tensors g 0
  · rfl

theorem blank_bind (g : Graph) (pack : Pack) : (g.bind pack).1.blank = g.blank := by
  have inputs := blank_bindSide g .input pack.inputs
  simp only [bind]
  cases bound : g.bindSide .input pack.inputs with
  | mk next result =>
    rw [bound] at inputs
    cases result with
    | error refusal => exact inputs
    | ok _ => exact (blank_bindSide next .output pack.outputs).trans inputs

theorem topology_of_bind {g bound : Graph} {pack : Pack} {result : Except Error Unit}
    (binding : g.clear.bind pack = (bound, result)) : bound.topology = g.topology := by
  have blank := g.clear.blank_bind pack
  rw [binding, blank_clear] at blank
  exact (blank_eq_iff.mp blank).1

theorem blank_placeFrom (node : String) (family : Family) (placed : List (TensorId × TensorDesc))
    (g : Graph) (index : Nat) : (placeFrom node family g index placed).1.blank = g.blank := by
  induction placed generalizing g index with
  | nil => rfl
  | cons entry rest ih =>
    simp only [placeFrom]
    split
    · rw [ih, blank_fill]
    · split
      · rw [ih]
      · rfl

@[simp] theorem nodes_fill (g : Graph) (id : TensorId) (tensor : Tensor) :
    (g.fill id tensor).nodes = g.nodes := by
  cases id <;> rfl

theorem nodes_bindFrom (side : Side) (tensors : List Tensor) (g : Graph) (index : Nat) :
    (bindFrom side g index tensors).1.nodes = g.nodes := by
  induction tensors generalizing g index with
  | nil => rfl
  | cons tensor rest ih =>
    by_cases overflows : tensor.desc.overflows
    · simp only [bindFrom, overflows, if_true]
    · simp only [bindFrom, overflows, Bool.false_eq_true, if_false, ih, nodes_fill]

theorem nodes_bindSide (g : Graph) (side : Side) (tensors : List Tensor) :
    (g.bindSide side tensors).1.nodes = g.nodes := by
  simp only [bindSide]
  split
  · exact nodes_bindFrom side tensors g 0
  · rfl

theorem nodes_bind (g : Graph) (pack : Pack) : (g.bind pack).1.nodes = g.nodes := by
  have inputs := nodes_bindSide g .input pack.inputs
  simp only [bind]
  cases bound : g.bindSide .input pack.inputs with
  | mk next result =>
    rw [bound] at inputs
    cases result with
    | error refusal => exact inputs
    | ok _ => exact (nodes_bindSide next .output pack.outputs).trans inputs

theorem nodes_placeFrom (node : String) (family : Family) (placed : List (TensorId × TensorDesc))
    (g : Graph) (index : Nat) : (placeFrom node family g index placed).1.nodes = g.nodes := by
  induction placed generalizing g index with
  | nil => rfl
  | cons entry rest ih =>
    simp only [placeFrom]
    split
    · rw [ih, nodes_fill]
    · split
      · rw [ih]
      · rfl

/-- A node that is resolved gets its outputs placed, as far as they are compatible, and is settled
if all are. -/
theorem state_resolveAt (checkViews : Bool) (g : Graph) (position : Nat) :
    (resolveAt checkViews g position).state = g ∨
      ∃ n r placed, g.nodes[position]? = some n ∧
        (placeFrom n.name r.param.family g 0 (n.outputs.zip r.outputs)).1 = placed ∧
        ((resolveAt checkViews g position).state = placed ∨
          (resolveAt checkViews g position).state = placed.settle position r) := by
  cases found : g.nodes[position]? with
  | none => exact .inl (by simp only [resolveAt, found, Outcome.done])
  | some n =>
    cases resolution : n.resolve g checkViews with
    | error refusal => exact .inl (by simp only [resolveAt, found, resolution, Outcome.failed])
    | ok r =>
      cases placing : placeFrom n.name r.param.family g 0 (n.outputs.zip r.outputs) with
      | mk placed result =>
        refine .inr ⟨n, r, placed, rfl, by rw [placing], ?_⟩
        cases result <;> simp [resolveAt, found, resolution, placing, Outcome.failed]

theorem blank_resolveAt (checkViews : Bool) (g : Graph) (position : Nat) :
    (resolveAt checkViews g position).state.blank = g.blank := by
  rcases state_resolveAt checkViews g position with kept | ⟨n, r, placed, -, rfl, kept | kept⟩
  · rw [kept]
  · rw [kept, blank_placeFrom]
  · rw [kept, blank_settle, blank_placeFrom]

theorem blank_resolve (checkViews : Bool) (g : Graph) :
    (resolve checkViews g).state.blank = g.blank :=
  Outcome.forEach_keeps (fun next => next.blank = g.blank) _
    (fun next position _ kept => (blank_resolveAt checkViews next position).trans kept) g rfl

/-- What has happened when the node at a position was resolved. -/
theorem resolveAt_ok {checkViews : Bool} {g : Graph} {position : Nat} {n : Node}
    (found : g.nodes[position]? = some n)
    (success : (resolveAt checkViews g position).result = .ok ()) :
    ∃ r placed, n.resolve g checkViews = .ok r ∧
      placeFrom n.name r.param.family g 0 (n.outputs.zip r.outputs) = (placed, .ok ()) ∧
      (resolveAt checkViews g position).state = placed.settle position r := by
  simp only [resolveAt, found] at success ⊢
  cases resolution : n.resolve g checkViews with
  | error refusal => simp [resolution, Outcome.failed] at success
  | ok r =>
    simp only [resolution] at success ⊢
    cases placing : placeFrom n.name r.param.family g 0 (n.outputs.zip r.outputs) with
    | mk placed result =>
      cases result with
      | error refusal => simp [placing, Outcome.failed] at success
      | ok _ => exact ⟨r, placed, rfl, placing, rfl⟩

theorem nodes_resolveAt {s t : Graph} {checkViews : Bool} {position : Nat}
    (alike : s.unresolved = t.unresolved)
    (success : (resolveAt checkViews s position).result = .ok ()) (i : Nat)
    (settled : i = position ∨ s.nodes[i]? = t.nodes[i]?) :
    (resolveAt checkViews s position).state.nodes[i]? =
      (resolveAt checkViews t position).state.nodes[i]? := by
  have sameNode : s.nodes[position]?.map Node.unresolved =
      t.nodes[position]?.map Node.unresolved := by
    rw [← getElem?_unresolved, ← getElem?_unresolved, alike]
  have sameSuccess : (resolveAt checkViews t position).result = .ok () := by
    rw [← success]
    exact (Outcome.within_eq_within.mp (resolveAt_congr checkViews position alike)).2.2.symm
  cases foundLeft : s.nodes[position]? with
  | none =>
    have foundRight : t.nodes[position]? = none := by
      rw [foundLeft] at sameNode
      exact Option.map_eq_none_iff.mp sameNode.symm
    simp only [resolveAt, foundLeft, foundRight, Outcome.done]
    rcases settled with rfl | same
    · rw [foundLeft, foundRight]
    · exact same
  | some n =>
    rw [foundLeft] at sameNode
    obtain ⟨m, foundRight, nodes⟩ := Option.map_eq_some_iff.mp sameNode.symm
    obtain ⟨r, placed, resolution, placing, state⟩ := resolveAt_ok foundLeft success
    obtain ⟨r', placed', resolution', placing', state'⟩ := resolveAt_ok foundRight sameSuccess
    have sameResolution : r = r' := by
      have resolutions : n.resolve s checkViews = m.resolve t checkViews := by
        rw [← n.resolve_unresolved, ← m.resolve_unresolved, nodes, alike]
      simpa only [resolution, resolution', Except.ok.injEq] using resolutions
    have keptLeft : placed.nodes = s.nodes := by
      simpa only [placing] using nodes_placeFrom n.name r.param.family (n.outputs.zip r.outputs) s 0
    have keptRight : placed'.nodes = t.nodes := by
      simpa only [placing'] using
        nodes_placeFrom m.name r'.param.family (m.outputs.zip r'.outputs) t 0
    rw [state, state']
    simp only [settle, keptLeft, keptRight, List.getElem?_modify]
    by_cases here : position = i
    · subst here
      have record : { n with effective := r.param, resolvedInputs := r.inputs } =
          { m with effective := r.param, resolvedInputs := r.inputs } :=
        congrArg (fun k : Node => { k with effective := r.param, resolvedInputs := r.inputs })
          nodes.symm
      simp only [foundLeft, foundRight, if_true, ← sameResolution]
      exact congrArg some record
    · have same : s.nodes[i]? = t.nodes[i]? := by
        rcases settled with rfl | same
        · exact absurd rfl here
        · exact same
      simp only [here, if_false, same]

theorem nodes_resolveAll {checkViews : Bool} (positions : List Nat) {s t : Graph}
    (alike : s.unresolved = t.unresolved)
    (success : (Outcome.forEach (resolveAt checkViews) s positions).result = .ok ()) (i : Nat)
    (settled : i ∈ positions ∨ s.nodes[i]? = t.nodes[i]?) :
    (Outcome.forEach (resolveAt checkViews) s positions).state.nodes[i]? =
      (Outcome.forEach (resolveAt checkViews) t positions).state.nodes[i]? := by
  induction positions generalizing s t with
  | nil =>
    simp only [List.not_mem_nil, false_or] at settled
    exact settled
  | cons position rest ih =>
    obtain ⟨nextAlike, -, nextResult⟩ :=
      Outcome.within_eq_within.mp (resolveAt_congr checkViews position alike)
    cases first : (resolveAt checkViews s position).result with
    | error refusal =>
      simp [Outcome.andThen_of_error _ first] at success
    | ok _ =>
      have first' : (resolveAt checkViews t position).result = .ok () := by
        rw [← nextResult, first]
      simp only [Outcome.forEach_cons, Outcome.andThen_of_ok _ first,
        Outcome.andThen_of_ok _ first'] at success ⊢
      refine ih nextAlike success ?_
      by_cases later : i ∈ rest
      · exact .inl later
      · refine .inr (nodes_resolveAt alike first i ?_)
        rcases settled with member | same
        · exact .inl ((List.mem_cons.mp member).resolve_right later)
        · exact .inr same

/-- Where resolution succeeds, nothing is left of what the nodes were before. -/
theorem resolve_eq_of_ok {s t : Graph} {checkViews : Bool} (alike : s.unresolved = t.unresolved)
    (success : (resolve checkViews s).result = .ok ()) :
    resolve checkViews s = resolve checkViews t := by
  have sameLength : s.nodes.length = t.nodes.length := by
    have nodes := congrArg (fun g : Graph => g.nodes.length) alike
    simpa only [unresolved, mapNodes, List.length_map] using nodes
  obtain ⟨slots, log, result⟩ := Outcome.within_eq_within.mp (resolve_congr checkViews alike)
  have nodes : (resolve checkViews s).state.nodes = (resolve checkViews t).state.nodes := by
    apply List.ext_getElem?
    intro i
    simp only [resolve, ← sameLength] at success ⊢
    refine nodes_resolveAll _ alike success i ?_
    by_cases inside : i < s.nodes.length
    · exact .inl (List.mem_range.mpr inside)
    · right
      rw [List.getElem?_eq_none (by omega), List.getElem?_eq_none (by omega)]
  simp only [unresolved, mapNodes, Graph.mk.injEq] at slots
  obtain ⟨name, inputs, outputs, internals, _⟩ := slots
  exact Outcome.ext (Graph.ext name inputs outputs internals nodes) log result

end Graph

end OperatorGraph
