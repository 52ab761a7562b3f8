import Orvex.Tools.Calculator

/-!
# Exactness of the calculator

The calculator is exact on all parts of an expression exactly when every
literal survives its conversion and the context holds the exact value of every
operation.
-/

namespace Orvex
namespace Calculator

open DecimalArithmetic (Holds Number)

/-- The calculator returns a decimal text of the exact value. -/
def ReturnsExact (interpreter : Interpreter) (expression : Expression) :
    Prop :=
  ∀ latencyMs, ∃ result text,
    run interpreter expression latencyMs = .ok result ∧
      result.output = .dict [("result", .str text)] ∧
      DecimalArithmetic.read text.toList = some expression.value

/-! ## Calls -/

namespace Expression

/-- The calls of `_eval` within each other. -/
def depth : Expression → ℕ
  | number _ => 1
  | add left right => max left.depth right.depth + 1
  | sub left right => max left.depth right.depth + 1
  | mul left right => max left.depth right.depth + 1
  | neg operand => operand.depth + 1
  | parenthesized inner => inner.depth

end Expression

def Node.depth : Node → ℕ
  | .constant _ => 1
  | .binOp _ left right => max left.depth right.depth + 1
  | .unaryOp _ operand => operand.depth + 1
  | .other => 1

/-- The result does not depend on the calls that are left if they are
enough. -/
theorem eval_eq {node : Node} {frames : ℕ} (h : node.depth ≤ frames) :
    eval frames node = eval node.depth node := by
  induction node generalizing frames with
  | constant value =>
      cases frames with
      | zero => cases h
      | succ frames => rfl
  | other =>
      cases frames with
      | zero => cases h
      | succ frames => rfl
  | unaryOp op operand ih =>
      cases frames with
      | zero => cases h
      | succ frames =>
          have hoperand : operand.depth ≤ frames := Nat.le_of_succ_le_succ h
          simp only [eval, Node.depth, ih hoperand]
  | binOp op left right ihleft ihright =>
      cases frames with
      | zero => cases h
      | succ frames =>
          have hmax : max left.depth right.depth ≤ frames :=
            Nat.le_of_succ_le_succ h
          simp only [eval, Node.depth,
            ihleft ((le_max_left _ _).trans hmax),
            ihright ((le_max_right _ _).trans hmax),
            ihleft (le_max_left left.depth right.depth),
            ihright (le_max_right left.depth right.depth)]

theorem depth_le_of_eval {node : Node} {frames : ℕ} {d : Number}
    (h : eval frames node = .ok d) : node.depth ≤ frames := by
  induction node generalizing frames d with
  | constant value =>
      cases frames with
      | zero => cases h
      | succ frames => exact Nat.succ_le_succ (Nat.zero_le frames)
  | other =>
      cases frames with
      | zero => cases h
      | succ frames => cases h
  | unaryOp op operand ih =>
      cases frames with
      | zero => cases h
      | succ frames =>
          rw [eval] at h
          split at h
          · cases h
          · obtain ⟨a, ha, -⟩ := Fallible.result_bind_eq_ok.mp h
            exact Nat.succ_le_succ (ih ha)
  | binOp op left right ihleft ihright =>
      cases frames with
      | zero => cases h
      | succ frames =>
          rw [eval] at h
          split at h
          · cases h
          · obtain ⟨a, ha, h⟩ := Fallible.result_bind_eq_ok.mp h
            obtain ⟨b, hb, -⟩ := Fallible.result_bind_eq_ok.mp h
            exact Nat.succ_le_succ (max_le (ihleft ha) (ihright hb))

theorem depth_of_nodeOf {expression : Expression} {node : Node}
    (h : nodeOf expression = .ok node) : node.depth = expression.depth := by
  induction expression generalizing node with
  | number literal =>
      obtain ⟨value, -, h⟩ := Fallible.result_bind_eq_ok.mp h
      cases h
      rfl
  | neg operand ih =>
      obtain ⟨inner, hinner, h⟩ := Fallible.result_bind_eq_ok.mp h
      cases h
      rw [Node.depth, Expression.depth, ih hinner]
  | parenthesized inner ih => exact ih h
  | add left right ihleft ihright =>
      obtain ⟨l, hl, h⟩ := Fallible.result_bind_eq_ok.mp h
      obtain ⟨r, hr, h⟩ := Fallible.result_bind_eq_ok.mp h
      cases h
      rw [Node.depth, Expression.depth, ihleft hl, ihright hr]
  | sub left right ihleft ihright =>
      obtain ⟨l, hl, h⟩ := Fallible.result_bind_eq_ok.mp h
      obtain ⟨r, hr, h⟩ := Fallible.result_bind_eq_ok.mp h
      cases h
      rw [Node.depth, Expression.depth, ihleft hl, ihright hr]
  | mul left right ihleft ihright =>
      obtain ⟨l, hl, h⟩ := Fallible.result_bind_eq_ok.mp h
      obtain ⟨r, hr, h⟩ := Fallible.result_bind_eq_ok.mp h
      cases h
      rw [Node.depth, Expression.depth, ihleft hl, ihright hr]

/-! ## Evaluation without a limit -/

/-- With enough calls the expression evaluates to the number. -/
def Evaluates (expression : Expression) (x : ℚ) : Prop :=
  ∃ node d, nodeOf expression = .ok node ∧ eval node.depth node = .ok d ∧
    d.value = some x

theorem returnsExact_iff {interpreter : Interpreter}
    {expression : Expression} :
    ReturnsExact interpreter expression ↔
      interpreter.nests expression = true ∧
        expression.depth ≤ interpreter.frames ∧
        Evaluates expression expression.value := by
  constructor
  · intro h
    obtain ⟨result, text, hrun, houtput, hread⟩ := h 0
    obtain ⟨node, hnode, hrun⟩ := Fallible.result_bind_eq_ok.mp hrun
    obtain ⟨d, hd, hrun⟩ := Fallible.result_bind_eq_ok.mp hrun
    unfold parse at hnode
    split at hnode
    · next hnests =>
        have hdepth := depth_le_of_eval hd
        rw [eval_eq hdepth] at hd
        rw [depth_of_nodeOf hnode] at hdepth
        refine ⟨hnests, hdepth, node, d, hnode, hd, ?_⟩
        cases hrun
        have htext : String.ofList d.text = text := by
          simpa using houtput
        rw [← htext, String.toList_ofList, DecimalArithmetic.read_text]
          at hread
        exact hread
    · cases hnode
  · intro h latencyMs
    obtain ⟨hnests, hdepth, node, d, hnode, hd, hvalue⟩ := h
    rw [← depth_of_nodeOf hnode] at hdepth
    have hparse : parse interpreter expression = .ok node := by
      rw [parse, if_pos hnests, hnode]
    have heval : eval interpreter.frames node = .ok d := by
      rw [eval_eq hdepth, hd]
    have hrun : run interpreter expression latencyMs = .ok
        ⟨.dict [("result", .str (String.ofList d.text))],
          some (.str "INTERNAL"), .str "calculator",
          .str ("sha256:" ++ String.ofList d.text), latencyMs, none⟩ := by
      rw [run, hparse, Fallible.result_ok_bind, heval,
        Fallible.result_ok_bind]
    refine ⟨_, String.ofList d.text, hrun, rfl, ?_⟩
    · rw [String.toList_ofList, DecimalArithmetic.read_text, hvalue]

/-! ## One operation -/

/-- The literal keeps its value: an integer is spelled as the parser allows,
and another number survives its conversion to a double. -/
def Literal.Exact : Literal → Prop
  | .integer first rest =>
      if first.val = 0 then natural rest = 0
      else rest.length < maxStrDigits
  | .float literal => Doubles.Survives (Literal.float literal).value

theorem natural_zero_cons {first : Digit} (hfirst : first.val = 0)
    (rest : List Digit) : natural (first :: rest) = natural rest := by
  rw [natural, List.foldl_cons, hfirst]
  rfl

theorem evaluates_number_iff {literal : Literal} :
    Evaluates (.number literal) literal.value ↔ literal.Exact := by
  cases literal with
  | float literal =>
      constructor
      · intro h
        obtain ⟨node, d, hnode, hd, hvalue⟩ := h
        cases hnode
        cases hd
        cases hnearest : Doubles.nearest (Literal.float literal).value with
        | none =>
            rw [hnearest] at hvalue
            cases hvalue
        | some y =>
            rw [hnearest] at hvalue
            exact ⟨y, hnearest, hvalue⟩
      · intro h
        obtain ⟨y, hnearest, hvalue⟩ := h
        refine ⟨_, Doubles.reprNumber y, rfl, ?_, hvalue⟩
        rw [hnearest]
        rfl
  | integer first rest =>
      have hevaluates : ∀ n : ℕ, constantOf (.integer first rest) =
          .ok (.int n) → natural (first :: rest) = n →
            Evaluates (.number (.integer first rest))
              (Literal.integer first rest).value := by
        intro n hconstant hn
        refine ⟨.constant (.int n), .finite false n 0, ?_, rfl, ?_⟩
        · rw [nodeOf, hconstant]
          rfl
        · simp [Number.value, DecimalArithmetic.signed, Literal.value, hn]
      have hfails : ∀ failure,
          constantOf (.integer first rest) = .error failure →
            ¬ Evaluates (.number (.integer first rest))
              (Literal.integer first rest).value := by
        intro failure hconstant h
        obtain ⟨node, d, hnode, -⟩ := h
        rw [nodeOf, hconstant] at hnode
        cases hnode
      rw [Literal.Exact]
      by_cases hfirst : first.val = 0
      · rw [if_pos hfirst]
        by_cases hrest : natural rest = 0
        · refine iff_of_true (hevaluates 0 ?_ ?_) hrest
          · rw [constantOf, if_pos hfirst, if_pos hrest]
          · rw [natural_zero_cons hfirst, hrest]
        · refine iff_of_false (hfails .syntaxError ?_) hrest
          rw [constantOf, if_pos hfirst, if_neg hrest]
      · rw [if_neg hfirst]
        by_cases hlong : maxStrDigits < rest.length + 1
        · refine iff_of_false (hfails .syntaxError ?_) (by omega)
          rw [constantOf, if_neg hfirst, if_pos hlong]
        · refine iff_of_true (hevaluates _ ?_ rfl) (by omega)
          rw [constantOf, if_neg hfirst, if_neg hlong]

variable {left right operand : Expression} {x y : ℚ}

theorem raising_eq_ok {result : Except DecimalArithmetic.Signal Number}
    {d : Number} :
    raising result = .ok d ↔ result = .ok d := by
  cases result with
  | ok value => exact ⟨fun h => by cases h; rfl, fun h => by cases h; rfl⟩
  | error signal => exact iff_of_false (fun h => by cases h) (fun h => by cases h)

/-- A binary operation on two numbers evaluates to what the operation gives
exactly when the context holds that. -/
theorem evaluates_binary_iff {expression : Expression} {op : BinOperator}
    {apply : Number → Number → Except DecimalArithmetic.Signal Number}
    {z : ℚ}
    (hop : binOps op = some apply)
    (hnode : nodeOf expression = (do
      .ok (.binOp op (← nodeOf left) (← nodeOf right))))
    (hexact : ∀ a b, a.value = some x → b.value = some y →
      ((∃ d, apply a b = .ok d ∧ d.value = some z) ↔ Holds context z))
    (hleft : Evaluates left x) (hright : Evaluates right y) :
    Evaluates expression z ↔ Holds context z := by
  obtain ⟨l, a, hl, ha, hx⟩ := hleft
  obtain ⟨r, b, hr, hb, hy⟩ := hright
  have hparsed : nodeOf expression = .ok (.binOp op l r) := by
    rw [hnode, hl, hr]
    rfl
  have heval : eval (Node.binOp op l r).depth (.binOp op l r) =
      raising (apply a b) := by
    simp only [Node.depth, eval, hop, eval_eq (le_max_left l.depth r.depth),
      eval_eq (le_max_right l.depth r.depth), ha, hb]
    rfl
  rw [← hexact a b hx hy]
  constructor
  · intro h
    obtain ⟨node, d, hnode', hd, hz⟩ := h
    rw [hparsed] at hnode'
    cases hnode'
    rw [heval] at hd
    exact ⟨d, raising_eq_ok.mp hd, hz⟩
  · intro h
    obtain ⟨d, happly, hz⟩ := h
    refine ⟨_, d, hparsed, ?_, hz⟩
    rw [heval]
    exact raising_eq_ok.mpr happly

theorem evaluates_neg_iff (h : Evaluates operand x) :
    Evaluates (.neg operand) (-x) ↔ Holds context (-x) := by
  obtain ⟨inner, a, hinner, ha, hx⟩ := h
  have hparsed : nodeOf (.neg operand) = .ok (.unaryOp .usub inner) := by
    rw [nodeOf, hinner]
    rfl
  have heval : eval (Node.unaryOp .usub inner).depth (.unaryOp .usub inner) =
      raising (DecimalArithmetic.neg context a) := by
    simp only [Node.depth, eval, unaryOps, ha]
    rfl
  rw [← DecimalArithmetic.neg_exact_iff hx]
  constructor
  · intro h
    obtain ⟨node, d, hnode, hd, hz⟩ := h
    rw [hparsed] at hnode
    cases hnode
    rw [heval] at hd
    exact ⟨d, raising_eq_ok.mp hd, hz⟩
  · intro h
    obtain ⟨d, hneg, hz⟩ := h
    refine ⟨_, d, hparsed, ?_, hz⟩
    rw [heval]
    exact raising_eq_ok.mpr hneg

/-! ## All parts of an expression -/

/-- A literal keeps its value, and the context holds the exact value of an
operation. -/
def Expression.StepExact : Expression → Prop
  | .number literal => literal.Exact
  | .add left right => Holds context (left.value + right.value)
  | .sub left right => Holds context (left.value - right.value)
  | .mul left right => Holds context (left.value * right.value)
  | .neg operand => Holds context (-operand.value)
  | .parenthesized _ => True

theorem Expression.mem_parts (expression : Expression) :
    expression ∈ expression.parts := by
  cases expression with
  | _ => exact List.mem_cons_self

/-- All parts evaluate to their values exactly when all steps are exact. -/
theorem evaluates_parts_iff (expression : Expression) :
    (∀ part ∈ expression.parts, Evaluates part part.value) ↔
      ∀ part ∈ expression.parts, part.StepExact := by
  have hbinary : ∀ whole left right : Expression,
      (Evaluates left left.value → Evaluates right right.value →
        (Evaluates whole whole.value ↔ whole.StepExact)) →
      ((∀ part ∈ left.parts, Evaluates part part.value) ↔
        ∀ part ∈ left.parts, part.StepExact) →
      ((∀ part ∈ right.parts, Evaluates part part.value) ↔
        ∀ part ∈ right.parts, part.StepExact) →
      ((∀ part ∈ whole :: (left.parts ++ right.parts),
          Evaluates part part.value) ↔
        ∀ part ∈ whole :: (left.parts ++ right.parts), part.StepExact) := by
    intro whole left right hwhole hleft hright
    rw [List.forall_mem_cons, List.forall_mem_cons, List.forall_mem_append,
      List.forall_mem_append, ← hleft, ← hright]
    constructor
    · intro h
      exact ⟨(hwhole (h.2.1 left left.mem_parts)
        (h.2.2 right right.mem_parts)).mp h.1, h.2⟩
    · intro h
      exact ⟨(hwhole (h.2.1 left left.mem_parts)
        (h.2.2 right right.mem_parts)).mpr h.1, h.2⟩
  have hunary : ∀ whole operand : Expression,
      (Evaluates operand operand.value →
        (Evaluates whole whole.value ↔ whole.StepExact)) →
      ((∀ part ∈ operand.parts, Evaluates part part.value) ↔
        ∀ part ∈ operand.parts, part.StepExact) →
      ((∀ part ∈ whole :: operand.parts, Evaluates part part.value) ↔
        ∀ part ∈ whole :: operand.parts, part.StepExact) := by
    intro whole operand hwhole hoperand
    rw [List.forall_mem_cons, List.forall_mem_cons, ← hoperand]
    constructor
    · intro h
      exact ⟨(hwhole (h.2 operand operand.mem_parts)).mp h.1, h.2⟩
    · intro h
      exact ⟨(hwhole (h.2 operand operand.mem_parts)).mpr h.1, h.2⟩
  induction expression with
  | number literal =>
      rw [Expression.parts, List.forall_mem_singleton,
        List.forall_mem_singleton]
      exact evaluates_number_iff
  | add left right ihleft ihright =>
      apply hbinary _ left right _ ihleft ihright
      exact evaluates_binary_iff rfl rfl
        fun a b ha hb => DecimalArithmetic.add_exact_iff ha hb
  | sub left right ihleft ihright =>
      apply hbinary _ left right _ ihleft ihright
      exact evaluates_binary_iff rfl rfl
        fun a b ha hb => DecimalArithmetic.sub_exact_iff ha hb
  | mul left right ihleft ihright =>
      apply hbinary _ left right _ ihleft ihright
      exact evaluates_binary_iff rfl rfl
        fun a b ha hb => DecimalArithmetic.mul_exact_iff ha hb
  | neg operand ih =>
      exact hunary _ operand evaluates_neg_iff ih
  | parenthesized inner ih =>
      apply hunary _ inner _ ih
      intro h
      exact iff_of_true h trivial

/-- The calculator is exact on all parts of an expression exactly when the
interpreter allows the nesting of each, every literal keeps its value and the
context holds the exact value of every operation. -/
theorem exact_parts_iff (interpreter : Interpreter)
    (expression : Expression) :
    (∀ part ∈ expression.parts, ReturnsExact interpreter part) ↔
      ∀ part ∈ expression.parts,
        interpreter.nests part = true ∧ part.depth ≤ interpreter.frames ∧
          part.StepExact := by
  have hsteps := evaluates_parts_iff expression
  constructor
  · intro h part hpart
    have hpart' := returnsExact_iff.mp (h part hpart)
    refine ⟨hpart'.1, hpart'.2.1, hsteps.mp ?_ part hpart⟩
    intro other hother
    exact (returnsExact_iff.mp (h other hother)).2.2
  · intro h part hpart
    have hpart' := h part hpart
    apply returnsExact_iff.mpr
    refine ⟨hpart'.1, hpart'.2.1, hsteps.mpr ?_ part hpart⟩
    intro other hother
    exact (h other hother).2.2

/-! ## Twenty-nine digits -/

/-- `12345678901234567890123456789`. -/
def longLiteral : Literal :=
  .integer (digit 1) ([2, 3, 4, 5, 6, 7, 8, 9, 0, 1, 2, 3, 4, 5, 6, 7, 8, 9, 0,
    1, 2, 3, 4, 5, 6, 7, 8, 9].map digit)

theorem value_longLiteral :
    longLiteral.value = (12345678901234567890123456789 : ℤ) := by
  have hnatural : natural (digit 1 :: [2, 3, 4, 5, 6, 7, 8, 9, 0, 1, 2, 3, 4,
      5, 6, 7, 8, 9, 0, 1, 2, 3, 4, 5, 6, 7, 8, 9].map digit) =
      12345678901234567890123456789 := rfl
  rw [longLiteral, Literal.value, hnatural]
  norm_num

theorem not_holds_long :
    ¬ Holds context (-(12345678901234567890123456789 : ℤ)) := by
  intro h
  obtain ⟨m, e, hm, -, -, hvalue⟩ := h
  change |m| < 10 ^ 28 at hm
  have hbound := abs_lt.mp hm
  cases e with
  | ofNat k =>
      have hint : -12345678901234567890123456789 = m * 10 ^ k := by
        rw [Int.ofNat_eq_natCast, zpow_natCast] at hvalue
        exact_mod_cast hvalue
      cases k with
      | zero => omega
      | succ k =>
          rw [pow_succ, ← mul_assoc] at hint
          generalize m * 10 ^ k = n at hint
          omega
  | negSucc k =>
      have hint : -12345678901234567890123456789 * 10 ^ (k + 1) = m := by
        rw [zpow_negSucc] at hvalue
        have hpos : (10 : ℚ) ^ (k + 1) ≠ 0 := by positivity
        rw [eq_mul_inv_iff_mul_eq₀ hpos] at hvalue
        exact_mod_cast hvalue
      have hone : (1 : ℤ) ≤ 10 ^ (k + 1) := one_le_pow₀ (by norm_num)
      omega

/-- The negation of a number of twenty-nine digits is rounded. -/
theorem long_negation_rounded :
    ¬ ReturnsExact ⟨fun _ => true, 1000⟩ (.neg (.number longLiteral)) := by
  intro h
  have hevaluates := (returnsExact_iff.mp h).2.2
  have hexact : longLiteral.Exact := by
    rw [longLiteral, Literal.Exact, if_neg (by decide)]
    decide
  have hliteral := evaluates_number_iff.mpr hexact
  have hholds := (evaluates_neg_iff hliteral).mp hevaluates
  rw [value_longLiteral] at hholds
  exact not_holds_long hholds

end Calculator
end Orvex
