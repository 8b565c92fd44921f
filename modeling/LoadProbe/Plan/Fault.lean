import LoadProbe.Plan.Basic

/-!
# Faults of plans

A plan that reads well may still be unfit to be carried out. `Plan.faults` lists what is wrong with
it, in the order in which it is looked at; only the first fault is ever reported. The comparisons
are made so that what is no number fails them.
-/

namespace LoadProbe

/-- The factors of a plan. -/
inductive Factor where
  | expand
  | refine
  | shrink
deriving DecidableEq, Repr

namespace Factor

/-- The name of a factor in a plan. -/
def name : Factor → String
  | expand => "expand-grow-factor"
  | refine => "refine-grow-factor"
  | shrink => "refine-shrink-factor"

def value (s : Pass.Settings) : Factor → Float
  | expand => s.expand
  | refine => s.refine
  | shrink => s.shrink

/-- The factors in the order in which they are looked at. -/
def all : List Factor := [expand, refine, shrink]

end Factor

/-- Something that makes a plan unfit. -/
inductive PlanFault where
  | urlScheme
  | noUsername
  | factorNotPositive (factor : Factor)
  | overtimeBelowOne
  | shareOutOfRange
  | boundBelowOne
  | initialBelowOne
  | noTitle
  | noTrials (title : String)
deriving DecidableEq, Repr

def PlanFault.message : PlanFault → String
  | urlScheme => "server url must start with http:// or https://"
  | noUsername => "server username cannot be empty"
  | factorNotPositive factor => factor.name ++ " must be greater than 0"
  | overtimeBelowOne => "overtime-tolerance-multiplier must be at least 1"
  | shareOutOfRange => "success-tolerance-percentage must be in (0, 1]"
  | boundBelowOne => "theoretical-upper-bound must be at least 1"
  | initialBelowOne => "initial-parallel-runs must be at least 1"
  | noTitle => "scenario title cannot be empty"
  | noTrials title => "scenario '" ++ title ++ "': num-initial-speed-test-runs must be at least 1"

/-- A fault, unless a condition holds. -/
def PlanFault.unless (f : PlanFault) (ok : Bool) : List PlanFault :=
  if ok then [] else [f]

/-- A url of one of the two schemes that the facade is reached by. -/
def hasScheme (url : String) : Bool :=
  ["http://", "https://"].any fun scheme => scheme.toList.isPrefixOf url.toList

/-- The faults of what steers the passes. -/
def settingsFaults (s : Pass.Settings) : List PlanFault :=
  (Factor.all.flatMap fun f => (PlanFault.factorNotPositive f).unless (decide (0.0 < f.value s))) ++
    PlanFault.overtimeBelowOne.unless (decide (1.0 ≤ s.overtime)) ++
    PlanFault.shareOutOfRange.unless (decide (0.0 < s.success) && decide (s.success ≤ 1.0)) ++
    PlanFault.boundBelowOne.unless (decide (1 ≤ s.upper)) ++
    PlanFault.initialBelowOne.unless (decide (1 ≤ s.initial))

/-- The faults of an entry, enabled or not. -/
def PlanEntry.faults (e : PlanEntry) : List PlanFault :=
  PlanFault.noTitle.unless (!e.title.isEmpty) ++
    (PlanFault.noTrials e.title).unless (decide (1 ≤ e.trials))

namespace Plan

/-- Everything that is wrong with a plan. -/
def faults (p : Plan) : List PlanFault :=
  PlanFault.urlScheme.unless (hasScheme p.url) ++
    PlanFault.noUsername.unless (!p.account.username.isEmpty) ++
    settingsFaults p.written ++ p.entries.flatMap PlanEntry.faults

/-- The fault that is reported. -/
def fault? (p : Plan) : Option PlanFault := p.faults.head?

/-- A plan without faults. -/
def Sound (p : Plan) : Prop := p.faults = []

instance (p : Plan) : Decidable p.Sound := inferInstanceAs (Decidable (p.faults = []))

theorem fault?_eq_none_iff {p : Plan} : p.fault? = none ↔ p.Sound :=
  List.head?_eq_none_iff

end Plan

end LoadProbe
