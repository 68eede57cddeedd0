import Conformance.Proofs.Expr.Composition
import Conformance.Proofs.Text.Decimal

/-!
# Values in normal form

A value is in normal form if it is not JSON of a content that a plain value has as well: null, a boolean, a string or an
integer of 64 bits (`Value.IsNormal`). Two values in normal form are the same exactly if their contents are
(`Value.eq_iff_content_eq`), and what is taken out of JSON is put into normal form with its content kept
(`isNormal_ofJson`, `content_ofJson`).

Each operation, index and function gives a value in normal form whatever it is applied to, so an expression can only have
another value if it is a literal or a variable that has one (`isNormal_of_evalTree`). No text of a program writes such a
literal, so a program keeps variables in normal form (`eval_isNormal`, `eval_error_isNormal`), and what a chain of indices
leads to compares by content (`evalTree_eq_chain`).
-/
namespace Conformance

open Text

/-! ## JSON that has a plain form -/

namespace Json

/-- JSON of a content that a plain value has as well. -/
inductive IsScalar : Json → Prop where
  | null : IsScalar .null
  | bool (b : Bool) : IsScalar (.bool b)
  | str (s : String) : IsScalar (.str s)
  /-- However its number is written. -/
  | int {text : String} {n : Int64} (h : readInt64? text.toList = some n) : IsScalar (.number text)

/-- The content of a JSON value: itself, but for the way in which it writes an integer of 64 bits. -/
def content : Json → Json
  | .number text =>
    match readInt64? text.toList with
    | some n => .ofInt n.toInt
    | none => .number text
  | j => j

/-- The element of a JSON value at an index: a member by its name, or an item by its position. -/
def element? (j : Json) (index : Expr.Value) : Option Json :=
  match j, index with
  | .obj members, .str key => members.lookup key
  | .arr items, .int i => if i < 0 then none else items[i.toNatClampNeg]?
  | _, _ => none

/-- What one index after the other leads to. -/
def along? (j : Json) (indices : List Expr.Value) : Option Json := indices.foldlM element? j

theorem content_number_of_some {text : String} {n : Int64} (h : readInt64? text.toList = some n) :
    (Json.number text).content = .ofInt n.toInt := by
  unfold content
  dsimp only
  rw [h]

theorem content_number_of_none {text : String} (h : readInt64? text.toList = none) :
    (Json.number text).content = .number text := by
  unfold content
  dsimp only
  rw [h]

end Json

namespace Expr

variable {σ : Type} {host : Host σ} {env env' : Env} {s s' s₁ s₂ s₃ : σ} {v w : Value} {j x : Json} {p : Phrase}
  {ts : List Token} {e t : Tree}

/-! ## Values -/

namespace Value

/-- The value is not JSON that has a plain form. -/
def IsNormal (v : Value) : Prop := ∀ j, v = .json j → ¬ j.IsScalar

/-- What the value says, plain or not. -/
def content : Value → Json
  | null => .null
  | bool b => .bool b
  | int n => .ofInt n.toInt
  | str s => .str s
  | json j => j.content

theorem isNormal_null : IsNormal .null := by
  intro j h
  cases h

theorem isNormal_bool (b : Bool) : IsNormal (.bool b) := by
  intro j h
  cases h

theorem isNormal_int (n : Int64) : IsNormal (.int n) := by
  intro j h
  cases h

theorem isNormal_str (s : String) : IsNormal (.str s) := by
  intro j h
  cases h

theorem isNormal_json_iff : (json j).IsNormal ↔ ¬ j.IsScalar := by
  constructor
  · exact fun h => h j rfl
  · intro h j' heq
    injection heq with heq
    exact heq ▸ h

theorem isNormal_arr (items : List Json) : (json (.arr items)).IsNormal :=
  isNormal_json_iff.2 fun h => by cases h

theorem isNormal_obj (members : List (String × Json)) : (json (.obj members)).IsNormal :=
  isNormal_json_iff.2 fun h => by cases h

theorem ofJson_number_of_some {text : String} {n : Int64} (h : readInt64? text.toList = some n) :
    ofJson (.number text) = .int n := by
  unfold ofJson
  dsimp only [Json.int64?]
  rw [h]

theorem ofJson_number_of_none {text : String} (h : readInt64? text.toList = none) :
    ofJson (.number text) = .json (.number text) := by
  unfold ofJson
  dsimp only [Json.int64?]
  rw [h]

/-- JSON without a plain form stays JSON. -/
theorem ofJson_of_not_isScalar (h : ¬ j.IsScalar) : ofJson j = .json j := by
  cases j with
  | null => exact absurd .null h
  | bool b => exact absurd (.bool b) h
  | str s => exact absurd (.str s) h
  | number text =>
    cases hread : readInt64? text.toList with
    | some n => exact absurd (.int hread) h
    | none => exact ofJson_number_of_none hread
  | arr items => rfl
  | obj members => rfl

/-- What is taken out of JSON is in normal form. -/
theorem isNormal_ofJson (j : Json) : (ofJson j).IsNormal := by
  by_cases h : j.IsScalar
  · cases h with
    | null => exact isNormal_null
    | bool b => exact isNormal_bool b
    | str s => exact isNormal_str s
    | @int text n hread =>
      rw [ofJson_number_of_some hread]
      exact isNormal_int n
  · rw [ofJson_of_not_isScalar h]
    exact isNormal_json_iff.2 h

/-- The check that a value is in normal form. -/
theorem isNormal_iff : v.isNormal = true ↔ v.IsNormal := by
  cases v with
  | null => exact iff_of_true rfl isNormal_null
  | bool b => exact iff_of_true rfl (isNormal_bool b)
  | int n => exact iff_of_true rfl (isNormal_int n)
  | str s => exact iff_of_true rfl (isNormal_str s)
  | json j =>
    rw [isNormal, decide_eq_true_iff]
    constructor
    · exact fun h => h ▸ isNormal_ofJson j
    · exact fun h => ofJson_of_not_isScalar (isNormal_json_iff.1 h)

/-- Taking a value out of JSON keeps its content. -/
theorem content_ofJson (j : Json) : (ofJson j).content = j.content := by
  cases j with
  | number text =>
    cases hread : readInt64? text.toList with
    | some n => rw [ofJson_number_of_some hread, Json.content_number_of_some hread, content]
    | none => rw [ofJson_number_of_none hread, content]
  | _ => rfl

theorem ofJson_ofInt (n : Int64) : ofJson (.ofInt n.toInt) = .int n := ofJson_number_of_some (readInt64?_toString n)

/-- A value in normal form is what its content is as a value. -/
theorem ofJson_content (h : v.IsNormal) : ofJson v.content = v := by
  cases v with
  | int n => exact ofJson_ofInt n
  | json j =>
    have hj := isNormal_json_iff.1 h
    cases j with
    | number text =>
      cases hread : readInt64? text.toList with
      | some n => exact absurd (.int hread) hj
      | none => rw [content, Json.content_number_of_none hread, ofJson_number_of_none hread]
    | _ => exact ofJson_of_not_isScalar hj
  | _ => rfl

/-- Values in normal form are told apart by their contents. -/
theorem eq_iff_content_eq (hv : v.IsNormal) (hw : w.IsNormal) : v = w ↔ v.content = w.content := by
  constructor
  · exact fun h => h ▸ rfl
  · intro h
    rw [← ofJson_content hv, h, ofJson_content hw]

end Value

/-! ## Variables -/

/-- All variables are in normal form. -/
def Env.IsNormal (env : Env) : Prop := ∀ name v, env.get? name = some v → v.IsNormal

theorem Env.isNormal_empty : Env.empty.IsNormal := by
  intro name v h
  cases h

theorem Env.IsNormal.set (h : env.IsNormal) (name : String) (hv : v.IsNormal) : (env.set name v).IsNormal := by
  intro other w hw
  by_cases hname : other = name
  · obtain rfl := hname
    rw [Env.get?_set_self] at hw
    exact Option.some.inj hw ▸ hv
  · rw [Env.get?_set_of_ne env v hname] at hw
    exact h other w hw

/-! ## What operations give -/

open Value

theorem isNormal_of_checked {n : Int} (h : checked n = .ok v) : v.IsNormal := by
  unfold checked at h
  split at h
  · exact Except.ok.inj h ▸ isNormal_int _
  · cases h

theorem isNormal_of_applySign {sign : Sign} {a : Value} (h : applySign sign a = .ok v) : v.IsNormal := by
  unfold applySign at h
  split at h
  · exact isNormal_of_checked h
  · cases h
  · exact Except.ok.inj h ▸ isNormal_bool _

theorem isNormal_of_applyInts {o : Binary} {a b : Int64} (h : applyInts o a b = .ok v) : v.IsNormal := by
  unfold applyInts at h
  split at h
  · exact Except.ok.inj h ▸ isNormal_bool _
  · exact Except.ok.inj h ▸ isNormal_bool _
  · exact isNormal_of_checked h
  · exact isNormal_of_checked h
  · exact isNormal_of_checked h
  · split at h
    · cases h
    · exact isNormal_of_checked h
  · split at h
    · cases h
    · split at h
      · cases h
      · exact isNormal_of_checked h

theorem isNormal_of_applyBinary {o : Binary} {a b : Value} (h : applyBinary o a b = .ok v) : v.IsNormal := by
  unfold applyBinary at h
  split at h
  · exact Except.ok.inj h ▸ isNormal_bool _
  · exact Except.ok.inj h ▸ isNormal_bool _
  · exact isNormal_of_applyInts h
  · exact Except.ok.inj h ▸ isNormal_str _
  · exact Except.ok.inj h ▸ isNormal_str _
  · cases h

/-- An element is in normal form, whatever it is an element of. -/
theorem isNormal_of_applyIndex {target index : Value} (h : applyIndex target index = .ok v) : v.IsNormal := by
  unfold applyIndex at h
  split at h
  · split at h
    · exact Except.ok.inj h ▸ isNormal_ofJson _
    · cases h
  · rename_i items i
    cases hitem : elementAt items i with
    | ok item =>
      rw [hitem] at h
      exact Except.ok.inj h ▸ isNormal_ofJson item
    | error p =>
      rw [hitem] at h
      cases h
  · rename_i text i
    cases hitem : elementAt text.toList i with
    | ok c =>
      rw [hitem] at h
      exact Except.ok.inj h ▸ isNormal_str _
    | error p =>
      rw [hitem] at h
      cases h
  · cases h

theorem isNormal_of_toInt {a : Value} (h : toInt a = .ok v) : v.IsNormal := by
  unfold toInt at h
  split at h
  · exact Except.ok.inj h ▸ isNormal_int _
  · exact Except.ok.inj h ▸ isNormal_int _
  · split at h
    · exact Except.ok.inj h ▸ isNormal_int _
    · cases h
  · cases h

theorem isNormal_of_lengthOf {a : Value} (h : lengthOf a = .ok v) : v.IsNormal := by
  unfold lengthOf at h
  obtain ⟨n, -, h⟩ := bind_eq_ok h
  split at h
  · exact Except.ok.inj h ▸ isNormal_int _
  · cases h

theorem isNormal_of_compute {f : Builtin} {name : String} {args : List Value} (h : f.compute name args = .ok v) :
    v.IsNormal := by
  unfold Builtin.compute at h
  split at h
  · exact Except.ok.inj h ▸ isNormal_str _
  · exact isNormal_of_toInt h
  · exact isNormal_of_lengthOf h
  · cases h
  · cases h

/-- Captures are an object, however many groups there are. -/
theorem isNormal_answer (f : Builtin) (captures : Captures) : (f.answer captures).IsNormal := by
  unfold Builtin.answer
  split
  · exact isNormal_obj _
  · exact isNormal_null

/-! ## Expressions -/

/-- A literal that is in normal form. Any other expression will do. -/
def Tree.IsNormal (e : Tree) : Prop := ∀ v, e = .literal v → v.IsNormal

/-- The literals that a program can write are plain. -/
theorem Writes.isNormal (h : Writes p ts e) : e.IsNormal := by
  induction h with
  | inner h ih => exact ih
  | parens h ih => exact ih
  | int n =>
    intro v hv
    exact Tree.literal.inj hv ▸ isNormal_int _
  | str text =>
    intro v hv
    exact Tree.literal.inj hv ▸ isNormal_str _
  | true =>
    intro v hv
    exact Tree.literal.inj hv ▸ isNormal_bool _
  | false =>
    intro v hv
    exact Tree.literal.inj hv ▸ isNormal_bool _
  | null =>
    intro v hv
    exact Tree.literal.inj hv ▸ isNormal_null
  | _ =>
    intro v hv
    cases hv

theorem eq_ok_of_failing {r : Except Problem Value} (h : failing r = .ok v) : r = .ok v := by
  cases r with
  | ok w => exact congrArg _ (Except.ok.inj h)
  | error p => cases h

/-- What an expression gives is in normal form, whatever its parts give, if it is neither a variable nor a literal that is
not. -/
theorem Raises.isNormal {granted : List (Expectation × Captures)} (h : Raises env e granted (.ok v))
    (henv : env.IsNormal) (he : e.IsNormal) : v.IsNormal := by
  generalize hout : (.ok v : Except EvalFailure Value) = out at h
  cases h with
  | literal w => exact Except.ok.inj hout ▸ he w rfl
  | @var name w hw => exact Except.ok.inj hout ▸ henv name w hw
  | sign o h =>
    obtain ⟨a, -, ha⟩ := bind_eq_ok hout.symm
    exact isNormal_of_applySign (eq_ok_of_failing ha)
  | binary o hl hr =>
    obtain ⟨b, -, hb⟩ := bind_eq_ok hout.symm
    exact isNormal_of_applyBinary (eq_ok_of_failing hb)
  | index ht hi =>
    obtain ⟨b, -, hb⟩ := bind_eq_ok hout.symm
    exact isNormal_of_applyIndex (eq_ok_of_failing hb)
  | computed h hf he => exact isNormal_of_compute (eq_ok_of_failing hout.symm)
  | granted h hf he captures => exact Except.ok.inj hout ▸ isNormal_answer _ captures
  | undefined h => cases hout
  | left o r h => cases hout
  | target i h => cases hout
  | argument name h => cases hout
  | unknown h hf => cases hout
  | refused h hf he => cases hout

theorem isNormal_of_evalTree (h : (evalTree host env e).run s = .ok v s') (henv : env.IsNormal) (he : e.IsNormal) :
    v.IsNormal := by
  obtain ⟨granted, out, hraises, hends⟩ := evalTree_ends host env s e
  rw [h] at hends
  cases hends with
  | value hserves => exact hraises.isNormal henv he

/-! ## Programs -/

/-- The expression of a statement is in normal form. -/
def Statement.IsNormal (stmt : Statement) : Prop := stmt.expression.IsNormal

theorem WritesStatement.isNormal {stmt : Statement} (h : WritesStatement ts stmt) : stmt.IsNormal := by
  cases h with
  | assign name h => exact h.isNormal
  | eval h => exact h.isNormal

theorem WritesProgram.isNormal {ss : List Statement} (h : WritesProgram ts ss) : ∀ stmt ∈ ss, stmt.IsNormal := by
  induction h with
  | empty => exact fun _ hmem => absurd hmem List.not_mem_nil
  | sep h ih => exact ih
  | last h => exact fun stmt hmem => List.mem_singleton.1 hmem ▸ h.isNormal
  | more h hrest ih => exact List.forall_mem_cons.2 ⟨h.isNormal, ih⟩

/-- No text writes a statement with JSON that has a plain form. -/
theorem isNormal_of_read {src : String} {ss : List Statement} (h : read src = .ok ss) : ∀ stmt ∈ ss, stmt.IsNormal := by
  obtain ⟨ts, -, hprogram⟩ := bind_eq_ok h
  exact (writesProgram_of_program hprogram).isNormal

/-- An assignment of a value in normal form leaves variables in normal form. -/
theorem isNormal_assigned (stmt : Statement) (henv : env.IsNormal) (hv : v.IsNormal) : (stmt.assigned env v).IsNormal := by
  cases stmt with
  | assign name e => exact henv.set name hv
  | eval e => exact henv

theorem isNormal_result (stmt : Statement) (hv : v.IsNormal) : (stmt.result v).IsNormal := by
  cases stmt with
  | assign name e => exact isNormal_null
  | eval e => exact hv

theorem Performs.isNormal {ss : List Statement} {granted : List (Expectation × Captures)}
    (h : Performs env ss granted env') (henv : env.IsNormal) (hss : ∀ stmt ∈ ss, stmt.IsNormal) : env'.IsNormal := by
  induction h with
  | nil env => exact henv
  | cons h hs ih =>
    obtain ⟨hstmt, hss⟩ := List.forall_mem_cons.1 hss
    exact ih (isNormal_assigned _ henv (h.isNormal henv hstmt)) hss

/-- Statements that succeed give a value in normal form if there is none or the last one does. -/
theorem isNormal_of_runStatements {ss : List Statement} {last : Value}
    (h : (runStatements host last ss).run (env, s) = .ok v (env', s')) (henv : env.IsNormal)
    (hss : ∀ stmt ∈ ss, stmt.IsNormal) (hlast : last.IsNormal) : v.IsNormal := by
  induction ss generalizing last env s with
  | nil =>
    injection h with hv
    exact hv ▸ hlast
  | cons stmt ss ih =>
    obtain ⟨hstmt, hss⟩ := List.forall_mem_cons.1 hss
    rw [runStatements, EStateM.run_bind] at h
    cases hrun : (evalTree host env stmt.expression).run s with
    | ok a s₁ =>
      rw [run_runStatement_of_ok hrun] at h
      have ha := isNormal_of_evalTree hrun henv hstmt
      exact ih h (isNormal_assigned stmt henv ha) hss (isNormal_result stmt ha)
    | error f s₁ =>
      rw [run_runStatement_of_error hrun] at h
      cases h

/-- A program that succeeds keeps variables in normal form, and its value is too. -/
theorem eval_isNormal {src : String} (h : (eval host src).run (env, s) = .ok v (env', s')) (henv : env.IsNormal) :
    v.IsNormal ∧ env'.IsNormal := by
  cases hread : read src with
  | ok ss =>
    rw [eval_of_ok host hread] at h
    have hss := isNormal_of_read hread
    obtain ⟨granted, hperforms, -⟩ := runStatements_ok h
    exact ⟨isNormal_of_runStatements h henv hss isNormal_null, hperforms.isNormal henv hss⟩
  | error p =>
    rw [eval_of_error host hread] at h
    cases h

/-- So does a program that fails. -/
theorem eval_error_isNormal {src : String} {f : Fault} (h : (eval host src).run (env, s) = .error f (env', s'))
    (henv : env.IsNormal) : env'.IsNormal := by
  cases hread : read src with
  | ok ss =>
    rw [eval_of_ok host hread] at h
    obtain ⟨before, stmt, after, granted, _, _, _, rfl, hperforms, -⟩ := runStatements_error h
    exact hperforms.isNormal henv fun stmt hmem => isNormal_of_read hread stmt (List.mem_append_left _ hmem)
  | error p =>
    rw [eval_of_error host hread] at h
    injection h with _ hs
    exact (Prod.mk.inj hs).1 ▸ henv

/-! ## Chains of indices -/

/-- An index of a value that was taken out of JSON leads to an element of the JSON. -/
theorem applyIndex_ofJson {index : Value} (h : j.element? index = some x) :
    applyIndex (.ofJson j) index = .ok (.ofJson x) := by
  unfold Json.element? at h
  split at h
  · rename_i members key
    show applyIndex (.json (.obj members)) (.str key) = _
    unfold applyIndex
    dsimp only
    rw [h]
  · rename_i items i
    show (elementAt items i).map Value.ofJson = _
    split at h
    · cases h
    · rename_i hneg
      rw [elementAt, if_neg hneg, h]
      rfl
  · cases h

theorem run_evalTrees_cons {es : List Tree} {vs : List Value} (h : (evalTrees host env (e :: es)).run s = .ok vs s') :
    ∃ a as s₁, (evalTree host env e).run s = .ok a s₁ ∧ (evalTrees host env es).run s₁ = .ok as s' ∧ vs = a :: as := by
  rw [evalTrees, EStateM.run_bind] at h
  cases he : (evalTree host env e).run s with
  | error f u =>
    rw [he] at h
    cases h
  | ok a s₁ =>
    rw [he] at h
    dsimp only at h
    rw [EStateM.run_bind] at h
    cases hes : (evalTrees host env es).run s₁ with
    | error f u =>
      rw [hes] at h
      cases h
    | ok as u =>
      rw [hes] at h
      injection h with hvs hu
      exact ⟨a, as, s₁, rfl, hu ▸ hes, hvs.symm⟩

/-- A chain of indices of a value that was taken out of JSON leads to what the indices lead to there. -/
theorem evalTree_chain {path : List Tree} {indices : List Value} (ht : (evalTree host env t).run s = .ok (.ofJson j) s₁)
    (hpath : (evalTrees host env path).run s₁ = .ok indices s₂) (hx : j.along? indices = some x) :
    (evalTree host env (path.foldl .index t)).run s = .ok (.ofJson x) s₂ := by
  induction path generalizing t j s₁ indices with
  | nil =>
    cases hpath
    obtain rfl := Option.some.inj hx
    exact ht
  | cons i path ih =>
    obtain ⟨index, rest, u, hi, hrest, rfl⟩ := run_evalTrees_cons hpath
    obtain ⟨y, hy, hx⟩ := Option.bind_eq_some_iff.1 hx
    refine ih ?_ hrest hx
    rw [evalTree, EStateM.run_bind, ht]
    dsimp only
    rw [EStateM.run_bind, hi]
    dsimp only
    rw [applyIndex_ofJson hy]
    rfl

/-- What a chain of indices leads to compares with a value in normal form by content. -/
theorem evalTree_eq_chain {path : List Tree} {indices : List Value}
    (ht : (evalTree host env t).run s = .ok (.json j) s₁) (hpath : (evalTrees host env path).run s₁ = .ok indices s₂)
    (hne : path ≠ []) (hx : j.along? indices = some x) (he : (evalTree host env e).run s₂ = .ok w s₃)
    (hw : w.IsNormal) :
    (evalTree host env (.binary .eq (path.foldl .index t) e)).run s = .ok (.bool (x.content = w.content)) s₃ := by
  -- only arrays and objects have elements
  have hj : ¬ j.IsScalar := by
    intro hj
    cases path with
    | nil => exact hne rfl
    | cons i path =>
      obtain ⟨index, rest, u, -, -, rfl⟩ := run_evalTrees_cons hpath
      obtain ⟨y, hy, -⟩ := Option.bind_eq_some_iff.1 hx
      cases hj <;> cases hy
  rw [← ofJson_of_not_isScalar hj] at ht
  have hsame : (Value.ofJson x = w) = (x.content = w.content) := by
    rw [eq_iff_content_eq (isNormal_ofJson x) hw, content_ofJson]
  rw [evalTree, EStateM.run_bind, evalTree_chain ht hpath hx]
  dsimp only
  rw [EStateM.run_bind, he]
  simp only [applyBinary, hsame]
  rfl

end Expr

end Conformance
