import GovAI.Audit.CanonicalJson

/-!
# Risk classes

The five risk classes of `packages/core-types`, from the lowest to the highest, ordered by
`RISK_ORDER`.
-/

namespace GovAI

/-- `RiskClass`, and the values of `risk_class`. -/
inductive RiskClass where
  | a
  | b
  | c
  | d
  | e
deriving DecidableEq

/-- `RISK_ORDER`. -/
def RiskClass.order : RiskClass → ℕ
  | .a => 0
  | .b => 1
  | .c => 2
  | .d => 3
  | .e => 4

/-- Distinct classes have distinct places in the order. -/
lemma RiskClass.order_injective : Function.Injective RiskClass.order := by
  rintro (_ | _ | _ | _ | _) (_ | _ | _ | _ | _) h <;> first | rfl | cases h

instance : LinearOrder RiskClass := LinearOrder.lift' RiskClass.order RiskClass.order_injective

lemma RiskClass.le_def {r r' : RiskClass} : r ≤ r' ↔ r.order ≤ r'.order := Iff.rfl

lemma RiskClass.lt_def {r r' : RiskClass} : r < r' ↔ r.order < r'.order := Iff.rfl

/-- `riskClass.toLowerCase()`. -/
def RiskClass.lower : RiskClass → JsString
  | .a => jsString "a"
  | .b => jsString "b"
  | .c => jsString "c"
  | .d => jsString "d"
  | .e => jsString "e"

end GovAI
