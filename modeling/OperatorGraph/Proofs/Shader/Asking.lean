import OperatorGraph.Proofs.Answers
import OperatorGraph.Shader.Run

set_option autoImplicit false

namespace OperatorGraph.Shader

variable {F : Type}

/-- A trap that does not come from asking for a launch parameter at or past a position. -/
def Trap.Under (words : Nat) : Trap → Prop
  | outside .info position => position < words
  | outside (.tensor _) _ | readOnly | unknownName _ | illTyped | textOnly => True

/-- A result with a property, or a trap that does not come from asking for a launch parameter at or
past a position. -/
def Asking (words : Nat) {α : Type} (post : α → Prop) : Except Trap α → Prop
  | .ok a => post a
  | .error trap => trap.Under words

namespace Asking

variable {α β : Type} {words : Nat}

theorem bind {first : Except Trap α} {next : α → Except Trap β} {middle : α → Prop}
    {post : β → Prop} (here : Asking words middle first)
    (later : ∀ a, first = .ok a → middle a → Asking words post (next a)) :
    Asking words post (first >>= next) := by
  cases first with
  | error trap => exact here
  | ok a => exact later a rfl here

theorem mono {result : Except Trap α} {post weaker : α → Prop} {more : Nat}
    (asking : Asking words post result) (fewer : words ≤ more) (weakens : ∀ a, post a → weaker a) :
    Asking more weaker result := by
  cases result with
  | ok a => exact weakens a asking
  | error trap =>
    cases trap with
    | outside buffer position =>
      cases buffer with
      | info => exact Nat.lt_of_lt_of_le asking fewer
      | tensor _ => trivial
    | readOnly | unknownName _ | illTyped | textOnly => trivial

theorem typed (value : Option α) : Asking words (fun a => value = some a) (typed value) := by
  cases value with
  | none => trivial
  | some a => exact rfl

end Asking

/-- The readings of launch parameters among some accesses are below a position. -/
def Within (words : Nat) (accesses : List Access) : Prop :=
  ∀ position, .read .info position ∈ accesses → position < words

namespace Within

variable {words : Nat} {front back : List Access}

theorem nil (words : Nat) : Within words [] :=
  fun _ member => absurd member List.not_mem_nil

theorem append (first : Within words front) (second : Within words back) :
    Within words (front ++ back) := by
  intro position member
  rcases List.mem_append.mp member with early | late
  · exact first position early
  · exact second position late

theorem info {position : Nat} (inside : position < words) :
    Within words [.read .info position] := by
  intro other member
  obtain rfl : other = position := by simpa using member
  exact inside

theorem tensor (words : Nat) {binding position : Nat} :
    Within words [.read (.tensor binding) position] := by
  intro other member
  simp at member

theorem write (words : Nat) {binding position : Nat} :
    Within words [.write binding position] := by
  intro other member
  simp at member

end Within

/-- As a position, the value is below another. -/
def Value.Indexes (words : Nat) (value : Value F) : Prop :=
  ∀ position, value.position? = some position → position < words

/-- What is known of the values of variables, by their names. -/
abbrev Facts (F : Type) :=
  String → Value F → Prop

/-- What is known of a counter holds of every word below a limit. -/
def Facts.Counts (facts : Facts F) (counter : String) (limit : Value F) : Prop :=
  ∀ finish, limit = .word finish → ∀ n < finish, facts counter (.word n)

def Thread.Knows (t : Thread F) (facts : Facts F) : Prop :=
  ∀ name value, t.vars name = some value → facts name value

theorem Thread.Knows.set {t : Thread F} {facts : Facts F} (knows : t.Knows facts) {name : String}
    {value : Value F} (fact : facts name value) : (t.set name value).Knows facts := by
  intro other found known
  by_cases same : other = name
  · subst same
    simp only [Thread.set, if_true, Option.some.injEq] at known
    exact known ▸ fact
  · simp only [Thread.set, if_neg same] at known
    exact knows other found known

namespace Thread

variable (t : Thread F)

theorem lookup_asking (words : Nat) (name : String) :
    Asking words (fun _ => True) (t.lookup name) := by
  unfold lookup
  split <;> trivial

theorem load_info_asking {words position : Nat} (inside : position < words) (info : List UInt32) :
    Asking words (fun _ => True) (t.load info .info position) := by
  simp only [load]
  split
  · trivial
  · exact inside

theorem load_tensor_asking (words : Nat) (info : List UInt32) (binding position : Nat) :
    Asking words (fun _ => True) (t.load info (.tensor binding) position) := by
  simp only [load]
  split <;> trivial

end Thread

/-- A thread that knows some facts and has asked for launch parameters below a position only. -/
structure Thread.Confined (facts : Facts F) (words : Nat) (t : Thread F) : Prop where
  knows : t.Knows facts
  within : Within words t.accesses

namespace Thread.Confined

variable {facts : Facts F} {words : Nat} {t : Thread F}

theorem after (confined : t.Confined facts words) {accesses : List Access}
    (within : Within words accesses) : (t.after accesses).Confined facts words :=
  ⟨confined.knows, confined.within.append within⟩

theorem set (confined : t.Confined facts words) {name : String} {value : Value F}
    (fact : facts name value) : (t.set name value).Confined facts words :=
  ⟨confined.knows.set fact, confined.within⟩

end Thread.Confined

section

variable (c : Context F) (facts : Facts F) (words : Nat)

/-- Where the facts are known, every value of the expression has a property. -/
def Expr.Yields (e : Expr) (post : Value F → Prop) : Prop :=
  ∀ t : Thread F, t.Knows facts → ∀ value accesses, e.eval c t = .ok (value, accesses) → post value

namespace Expr

mutual

/-- Where the facts are known, the expression reads launch parameters below a position only. -/
def Confined : Expr → Prop
  | load .info index => index.Confined ∧ index.Yields c facts (Value.Indexes words)
  | load (.tensor _) index => index.Confined
  | negate inner | group inner => inner.Confined
  | binary _ lhs rhs => lhs.Confined ∧ rhs.Confined
  | call _ args => ConfinedArgs args
  | word _ | int _ | real _ | var _ => True

def ConfinedArgs : List Expr → Prop
  | [] => True
  | first :: rest => first.Confined ∧ ConfinedArgs rest

end

end Expr

namespace Stmt

mutual

/-- Where the facts are known, the statement reads launch parameters below a position only, and what
it gives variables agrees with the facts. -/
def Confined : Stmt → Prop
  | bind name value | declare name value | assign name value =>
    value.Confined c facts words ∧ value.Yields c facts (facts name)
  | addTo name value | mulBy name value =>
    value.Confined c facts words ∧ ∀ result, facts name result
  | store _ index value => index.Confined c facts words ∧ value.Confined c facts words
  | count _ counter first bound body =>
    first.Confined c facts words ∧ bound.Confined c facts words ∧
      bound.Yields c facts (facts.Counts counter) ∧ ConfinedAll body
  | when condition body => condition.Confined c facts words ∧ ConfinedAll body
  | leave | stop | blank => True

def ConfinedAll : List Stmt → Prop
  | [] => True
  | first :: rest => first.Confined ∧ ConfinedAll rest

end

end Stmt

end

/-- The functions that are not part of the language ask for no launch parameters. -/
def Context.Silent (c : Context F) : Prop :=
  ∀ function args, Asking 0 (fun _ => True) (c.callee function args)

section

variable {c : Context F} {facts : Facts F} {words : Nat}

namespace Expr

theorem call_asking (silent : c.Silent) (function : String) (args : List (Value F)) :
    Asking words (fun _ => True) (c.call function args) := by
  unfold Context.call
  split
  · trivial
  · exact (silent function args).mono (Nat.zero_le words) fun _ _ => trivial

mutual

/-- A confined expression asks for launch parameters below the position only. -/
theorem eval_asking (silent : c.Silent) {t : Thread F} (knows : t.Knows facts) (e : Expr)
    (confined : e.Confined c facts words) :
    Asking words (fun found => Within words found.2) (e.eval c t) := by
  match e with
  | .word _ | .int _ | .real _ => exact .nil words
  | .var name =>
    rw [eval]
    exact (t.lookup_asking words name).bind fun _ _ _ => .nil words
  | .load .info index =>
    obtain ⟨inner, below⟩ := confined
    rw [eval]
    refine (eval_asking silent knows index inner).bind fun ⟨value, accesses⟩ evaluated within => ?_
    refine (Asking.typed value.position?).bind fun position _ known => ?_
    have inside := below t knows value accesses evaluated position known
    exact (t.load_info_asking inside c.info).bind fun _ _ _ => within.append (.info inside)
  | .load (.tensor binding) index =>
    rw [eval]
    refine (eval_asking silent knows index confined).bind fun ⟨value, accesses⟩ _ within => ?_
    refine (Asking.typed value.position?).bind fun position _ _ => ?_
    exact (t.load_tensor_asking words c.info binding position).bind
      fun _ _ _ => within.append (.tensor words)
  | .negate inner =>
    rw [eval]
    refine (eval_asking silent knows inner confined).bind fun ⟨value, accesses⟩ _ within => ?_
    exact (Asking.typed _).bind fun _ _ _ => within
  | .group inner =>
    rw [eval]
    exact eval_asking silent knows inner confined
  | .binary op lhs rhs =>
    obtain ⟨left, right⟩ := confined
    have first := eval_asking silent knows lhs left
    have second := eval_asking silent knows rhs right
    -- A disjunction looks at its second operand only where the first is false.
    by_cases lazily : op = .or
    · subst lazily
      rw [eval]
      refine first.bind fun ⟨value, accesses⟩ _ within => ?_
      dsimp only
      split
      · rename_i same
        exact (Prod.mk.inj same).2 ▸ within
      · rename_i same
        obtain ⟨-, rfl⟩ := Prod.mk.inj same
        exact second.bind fun _ _ more => within.append more
      · trivial
    · rw [eval]
      on_goal 2 => exact lazily
      refine first.bind fun ⟨value, accesses⟩ _ within => ?_
      refine second.bind fun ⟨other, more⟩ _ later => ?_
      exact (Asking.typed _).bind fun _ _ _ => within.append later
  | .call function args =>
    rw [eval]
    refine (evalArgs_asking silent knows args confined).bind fun ⟨values, accesses⟩ _ within => ?_
    exact (call_asking silent function values).bind fun _ _ _ => within

theorem evalArgs_asking (silent : c.Silent) {t : Thread F} (knows : t.Knows facts)
    (args : List Expr) (confined : ConfinedArgs c facts words args) :
    Asking words (fun found => Within words found.2) (evalArgs c t args) := by
  match args with
  | [] => exact .nil words
  | first :: rest =>
    rw [evalArgs]
    refine (eval_asking silent knows first confined.1).bind fun ⟨value, accesses⟩ _ within => ?_
    exact (evalArgs_asking silent knows rest confined.2).bind fun _ _ more => within.append more

end

end Expr

namespace Stmt

/-- What is so of a thread that a statement leaves behind. -/
abbrev Leaves (facts : Facts F) (words : Nat) (ended : Flow × Thread F) : Prop :=
  ended.2.Confined facts words

theorem define_asking (silent : c.Silent) {t : Thread F} (begins : t.Confined facts words)
    {name : String} {value : Expr} (confined : value.Confined c facts words)
    (yields : value.Yields c facts (facts name)) :
    Asking words (Leaves facts words) (define c t name value) := by
  refine (value.eval_asking silent begins.knows confined).bind
    fun ⟨result, accesses⟩ evaluated within => ?_
  exact (begins.after within).set (yields t begins.knows result accesses evaluated)

theorem update_asking (silent : c.Silent) {t : Thread F} (begins : t.Confined facts words)
    (op : BinaryOp) {name : String} {value : Expr} (confined : value.Confined c facts words)
    (free : ∀ result, facts name result) :
    Asking words (Leaves facts words) (update c t op name value) := by
  refine (value.eval_asking silent begins.knows confined).bind
    fun ⟨operand, accesses⟩ _ within => ?_
  refine (t.lookup_asking words name).bind fun old _ _ => ?_
  refine (Asking.typed _).bind fun result _ _ => ?_
  exact (begins.after within).set (free result)

theorem store_asking {t : Thread F} (begins : t.Confined facts words) (buffer : Buffer)
    (position : Nat) (value : Value F) :
    Asking words (Thread.Confined facts words) (t.store buffer position value) := by
  cases buffer with
  | info => trivial
  | tensor binding =>
    simp only [Thread.store]
    split
    · exact ⟨begins.knows, begins.within.append (.write words)⟩
    · trivial

/-- A loop whose rounds are confined, with a counter below a limit, is confined. -/
theorem rounds_asking {body : Thread F → Except Trap (Flow × Thread F)} {counter : String}
    {finish : UInt32}
    (each : ∀ t : Thread F, t.Confined facts words → Asking words (Leaves facts words) (body t))
    (counts : facts.Counts counter (.word finish)) {total : Nat} {value : UInt32}
    (limit : value.toNat + total ≤ finish.toNat) {t : Thread F} (begins : t.Confined facts words) :
    Asking words (Leaves facts words) (rounds body counter total value t) := by
  -- On the rounds left: as long as there are some, the counter is below the limit and cannot wrap.
  induction total generalizing value t with
  | zero => exact begins
  | succ total ih =>
    have below : value < finish := UInt32.lt_iff_toNat_lt.mpr (by omega)
    rw [rounds]
    refine (each _ (begins.set (counts finish rfl value below))).bind fun ended _ once => ?_
    obtain ⟨flow, middle⟩ := ended
    cases flow with
    | next =>
      have next : (value + 1).toNat = value.toNat + 1 := by
        have small := finish.toNat_lt
        rw [UInt32.toNat_add]
        exact Nat.mod_eq_of_lt (by simp; omega)
      exact ih (by omega) once
    | leave | stop => exact once

mutual

/-- A confined statement asks for launch parameters below the position only, and keeps the facts. -/
theorem run_asking (silent : c.Silent) {t : Thread F} (begins : t.Confined facts words) (s : Stmt)
    (confined : s.Confined c facts words) :
    Asking words (Leaves facts words) (s.run c t) := by
  match s with
  | .bind name value | .declare name value | .assign name value =>
    exact define_asking silent begins confined.1 confined.2
  | .addTo name value => exact update_asking silent begins .add confined.1 confined.2
  | .mulBy name value => exact update_asking silent begins .mul confined.1 confined.2
  | .store buffer index value =>
    rw [run]
    refine (index.eval_asking silent begins.knows confined.1).bind
      fun ⟨place, accesses⟩ _ within => ?_
    refine (value.eval_asking silent begins.knows confined.2).bind fun ⟨result, more⟩ _ later => ?_
    refine (Asking.typed _).bind fun position _ _ => ?_
    exact (store_asking (begins.after (within.append later)) buffer position result).bind
      fun _ _ written => written
  | .count _ counter first bound body =>
    obtain ⟨atFirst, atBound, counts, inner⟩ := confined
    rw [run]
    refine (first.eval_asking silent begins.knows atFirst).bind
      fun ⟨start, accesses⟩ _ within => ?_
    refine (bound.eval_asking silent begins.knows atBound).bind
      fun ⟨finish, more⟩ evaluated later => ?_
    have starts := begins.after (within.append later)
    dsimp only
    split
    · rename_i first last _
      have limits := counts t begins.knows _ _ evaluated
      by_cases some : first.toNat ≤ last.toNat
      · exact rounds_asking (fun t begins => runAll_asking silent begins body inner) limits
          (by omega) starts
      · rw [Nat.sub_eq_zero_of_le (by omega)]
        exact starts
    · trivial
  | .when condition body =>
    rw [run]
    refine (condition.eval_asking silent begins.knows confined.1).bind
      fun ⟨value, accesses⟩ _ within => ?_
    split
    · rename_i same
      obtain ⟨-, rfl⟩ := Prod.mk.inj same
      exact runAll_asking silent (begins.after within) body confined.2
    · rename_i same
      obtain ⟨-, rfl⟩ := Prod.mk.inj same
      exact begins.after within
    · trivial
  | .leave | .stop | .blank => exact begins

theorem runAll_asking (silent : c.Silent) {t : Thread F} (begins : t.Confined facts words)
    (body : List Stmt) (confined : ConfinedAll c facts words body) :
    Asking words (Leaves facts words) (runAll c body t) := by
  match body with
  | [] => exact begins
  | first :: rest =>
    rw [runAll]
    refine (run_asking silent begins first confined.1).bind fun ended _ once => ?_
    obtain ⟨flow, middle⟩ := ended
    cases flow with
    | next => exact runAll_asking silent once rest confined.2
    | leave | stop => exact once

end

end Stmt

namespace Expr.Yields

variable {a b : Expr} {post : Value F → Prop}

theorem mono (yields : a.Yields c facts post) {weaker : Value F → Prop}
    (weakens : ∀ value, post value → weaker value) : a.Yields c facts weaker :=
  fun t knows value accesses evaluated => weakens value (yields t knows value accesses evaluated)

theorem word (n : Nat) : (Expr.word n).Yields c facts (· = .word (UInt32.ofNat n)) := by
  intro t knows value accesses evaluated
  exact (Prod.mk.inj (Except.ok.inj evaluated)).1.symm

theorem int (n : Nat) : (Expr.int n).Yields c facts (· = .literal n) := by
  intro t knows value accesses evaluated
  exact (Prod.mk.inj (Except.ok.inj evaluated)).1.symm

theorem var (name : String) : (Expr.var name).Yields c facts (facts name) := by
  intro t knows value accesses evaluated
  obtain ⟨found, looked, same⟩ := Answer.bind_eq_ok.mp evaluated
  obtain ⟨rfl, -⟩ := Prod.mk.inj (Except.ok.inj same)
  apply knows name
  unfold Thread.lookup at looked
  split at looked
  · rename_i known
    rw [known, Except.ok.inj looked]
  · simp at looked

theorem info {position : Nat} {word : UInt32} (found : c.info[position]? = some word) :
    (Expr.info position).Yields c facts (· = .word word) := by
  intro t knows value accesses evaluated
  have answer : (Expr.info position).eval c t = .ok (.word word, [.read .info position]) := by
    simp only [Expr.info, eval, Bind.bind, Except.bind, Value.position?, typed, Option.elim_some,
      Thread.load, found, pure, Except.pure, List.nil_append]
  rw [answer] at evaluated
  exact (Prod.mk.inj (Except.ok.inj evaluated)).1.symm

/-- The value of an operation on the values of its operands. -/
theorem binary {op : BinaryOp} (strict : op ≠ .or) {left right : Value F → Prop}
    (lhs : a.Yields c facts left) (rhs : b.Yields c facts right)
    (applies : ∀ x y z, left x → right y → op.apply c.arithmetic x y = some z → post z) :
    (Expr.binary op a b).Yields c facts post := by
  intro t knows value accesses evaluated
  rw [eval] at evaluated
  on_goal 2 => exact strict
  obtain ⟨⟨x, before⟩, atLhs, evaluated⟩ := Answer.bind_eq_ok.mp evaluated
  obtain ⟨⟨y, after⟩, atRhs, evaluated⟩ := Answer.bind_eq_ok.mp evaluated
  obtain ⟨z, applied, same⟩ := Answer.bind_eq_ok.mp evaluated
  obtain ⟨rfl, -⟩ := Prod.mk.inj (Except.ok.inj same)
  refine applies x y z (lhs t knows x before atLhs) (rhs t knows y after atRhs) ?_
  cases value : op.apply c.arithmetic x y with
  | none => simp [value, typed] at applied
  | some found => simpa [value, typed] using applied

end Expr.Yields

end

/-- The function asks for no launch parameters. -/
def Function.Silent (f : Function) : Prop :=
  ∀ {F : Type} (m : Arithmetic F) (args : List (Value F)), Asking 0 (fun _ => True) (f.apply m args)

theorem Function.silent_of_confined {f : Function} {body : List Stmt}
    (program : f.body = .program body)
    (confined : ∀ {F : Type} (c : Context F), Stmt.ConfinedAll c (fun _ _ => True) 0 body) :
    f.Silent := by
  intro F m args
  let c : Context F := ⟨m, [], fun name _ => .error (.unknownName name)⟩
  have silent : c.Silent := fun _ _ => trivial
  simp only [apply, program]
  refine (Stmt.runAll_asking silent ⟨fun _ _ _ => trivial, .nil 0⟩ body (confined c)).bind
    fun ⟨flow, t⟩ _ _ => ?_
  exact t.lookup_asking 0 _

namespace Kernel

/-- Some thread over these launch parameters asks for the one at a position: it has read it when it
ends, or it is stopped because there is none. -/
def Asks (k : Kernel) (info : List UInt32) (position : Nat) : Prop :=
  ∃ (F : Type) (m : Arithmetic F) (arrays : Arrays F) (index : UInt32),
    k.runThread m info arrays index = .error (.outside .info position) ∨
      ∃ t, k.runThread m info arrays index = .ok t ∧ .read .info position ∈ t.accesses

theorem threadLimit_confined {c : Context F} {facts : Facts F} {words : Nat} (some : 0 < words) :
    threadLimit.Confined c facts words := by
  refine ⟨⟨trivial, trivial, fun t knows value accesses evaluated position known => ?_⟩, trivial,
    trivial⟩
  obtain rfl := Expr.Yields.int 0 t knows value accesses evaluated
  obtain rfl := Option.some.inj known
  exact some

/-- A kernel asks for launch parameters below a position only, if its body does where some facts are
known that hold of every thread number. -/
theorem asks_lt {k : Kernel} {body : List Stmt} (program : k.body = .program body)
    (silent : ∀ f ∈ k.functions, f.Silent) {info : List UInt32} {words : Nat} (some : 0 < words)
    (confined : ∀ {F : Type} (m : Arithmetic F), ∃ facts : Facts F,
      (∀ n, facts "index" (.word n)) ∧ Stmt.ConfinedAll (k.context m info) facts words body)
    {position : Nat} (asks : k.Asks info position) : position < words := by
  obtain ⟨F, m, arrays, index, asked⟩ := asks
  obtain ⟨facts, numbers, inner⟩ := confined m
  have quiet : (k.context m info).Silent := by
    intro function args
    simp only [context]
    split
    · rename_i f found
      exact silent f (List.mem_of_find?_eq_some found) m args
    · trivial
  have limit : Stmt.ConfinedAll (k.context m info) facts words (threadLimit :: body) :=
    ⟨threadLimit_confined some, inner⟩
  have begins : ((⟨fun _ => none, arrays, []⟩ : Thread F).set "index" (.word index)).Confined facts
      words :=
    .set ⟨fun name value known => by simp at known, .nil words⟩ (numbers index)
  have ends : Asking words (fun t : Thread F => Within words t.accesses)
      (k.runThread m info arrays index) := by
    simp only [runThread, program]
    exact (Stmt.runAll_asking quiet begins _ limit).bind fun _ _ confined => confined.within
  rcases asked with trapped | ⟨t, ran, read⟩
  · rw [trapped] at ends
    exact ends
  · rw [ran] at ends
    exact ends position read

end Kernel

end OperatorGraph.Shader
