/-!
# Plans

The part of `services/plan.service.js` that billing reads: how a plan code resolves to a
plan, its tier and its grace and trial days. `Catalogue` is the stored plan catalogue,
read through `planService.getByCode`.
-/

namespace AnalyticsBackend.Billing

abbrev PlanCode := String

def defaultPlanCode : PlanCode := "free"

/-- The fields of a shaped plan that billing reads; `none` is an absent or non-integer
value. -/
structure Plan where
  code : PlanCode
  status : String := "active"
  tier : Option Int
  trialDays : Option Int
  graceDays : Option Int
  deriving DecidableEq, Repr

/-- The stored catalogue rows by code. -/
abbrev Catalogue := PlanCode → Option Plan

def defaultPlans : List Plan :=
  [{ code := "free", tier := some 0, trialDays := some 0, graceDays := some 0 },
   { code := "starter", tier := some 1, trialDays := some 14, graceDays := some 3 },
   { code := "pro", tier := some 2, trialDays := some 14, graceDays := some 7 },
   { code := "enterprise", tier := some 3, trialDays := some 30, graceDays := some 14 }]

/-- `referencePlan`: the built-in definition of a default plan code. -/
def referencePlan (code : PlanCode) : Option Plan :=
  defaultPlans.find? (fun p => p.code = code)

/-- `getByCode`: blank codes find nothing. -/
def getByCode (catalogue : Catalogue) (code : PlanCode) : Option Plan :=
  if code.toList.all Char.isWhitespace then none else catalogue code

/-- `resolveFallbackPlan`: the free plan of the catalogue, else its definition. -/
def resolveFallbackPlan (catalogue : Catalogue) : Plan :=
  (getByCode catalogue defaultPlanCode).getD
    { code := defaultPlanCode, tier := some 0, trialDays := some 0, graceDays := some 0 }

/-- `resolveByCode`: the catalogue row, else the reference definition, else free. -/
def resolveByCode (catalogue : Catalogue) (code : PlanCode) : Plan :=
  match getByCode catalogue code with
  | some row => row
  | none =>
      match referencePlan code with
      | some reference => reference
      | none => resolveFallbackPlan catalogue

/-- `getActiveByCode`. -/
def getActiveByCode (catalogue : Catalogue) (code : PlanCode) : Option Plan :=
  match getByCode catalogue code with
  | none => none
  | some plan => if plan.status = "disabled" ∨ plan.status = "archived" then none else some plan

/-- `tierOf`: unknown tiers rank lowest. -/
def tierOf (plan : Plan) : Int := plan.tier.getD 0

/-- `isFreePlan` of a plan code. -/
def isFreePlan (code : PlanCode) : Bool := code == defaultPlanCode

@[simp] theorem isFreePlan_default : isFreePlan defaultPlanCode = true := rfl

/-- What billing reads from outside the subscription row: the plan catalogue and
`env.billing.defaultGraceDays`. -/
structure BillingConfig where
  catalogue : Catalogue
  defaultGraceDays : Int := 7

/-- An empty stored catalogue: plans come from `DEFAULT_PLANS`. -/
def referenceConfig : BillingConfig := { catalogue := fun _ => none }

/-- `graceDaysFor`: the plan's value when it is a non-negative integer, else the
configured default. -/
def graceDaysFor (cfg : BillingConfig) (plan : Plan) : Int :=
  match plan.graceDays with
  | some days => if 0 ≤ days then days else cfg.defaultGraceDays
  | none => cfg.defaultGraceDays

end AnalyticsBackend.Billing
