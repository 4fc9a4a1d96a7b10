import RolloutWatch.Metric.Group
import RolloutWatch.Proofs.Number.Digits
import Mathlib.Data.List.Nodup

/-!
What validation reports of a group. Each rule that is broken is reported exactly once, under a
field that tells the rule and, for a rule on a metric, the metric's place in the group. A place
and a rule are told apart by their fields, so that a field can be looked up without ambiguity.
-/

namespace RolloutWatch

/-! ### Rules -/

/-- The rules on the fields of a group itself, in the order in which they are checked. -/
inductive GroupRule where
  | name
  | metrics
  | circleId
  deriving DecidableEq

namespace GroupRule

def all : List GroupRule :=
  [.name, .metrics, .circleId]

def violation : GroupRule → Violation
  | .name => { field := "name", message := "Name is required" }
  | .metrics => { field := "metrics", message := "Metrics is required" }
  | .circleId => { field := "circleId", message := "CircleID is required" }

def Broken (g : MetricsGroup) : GroupRule → Prop
  | .name => Blank.isBlank g.name = true
  | .metrics => g.metrics = []
  | .circleId => g.circleId = .nil

instance (g : MetricsGroup) : DecidablePred (Broken g)
  | .name => inferInstanceAs (Decidable (_ = true))
  | .metrics => inferInstanceAs (Decidable (g.metrics = []))
  | .circleId => inferInstanceAs (Decidable (g.circleId = .nil))

def step : GroupRule → Nat
  | .name => 0
  | .metrics => 1
  | .circleId => 2

theorem mem_all (r : GroupRule) : r ∈ all := by
  cases r <;> decide

end GroupRule

inductive MetricRule where
  | nickname
  | dataSourceId
  | metric
  | condition
  | threshold
  deriving DecidableEq

namespace MetricRule

def all : List MetricRule :=
  [.nickname, .dataSourceId, .metric, .condition, .threshold]

def violation : MetricRule → Violation
  | .nickname => { field := "nickname", message := "Nickname is required" }
  | .dataSourceId => { field := "dataSourceId", message := "DataSourceID is required" }
  | .metric => { field := "metric", message := "Metric or query is required" }
  | .condition => { field := "condition", message := "Condition is required" }
  | .threshold => { field := "threshold", message := "Threshold must be a finite number" }

def Broken (m : Metric) : MetricRule → Prop
  | .nickname => Blank.isBlank m.nickname = true
  | .dataSourceId => m.dataSourceId = .nil
  | .metric => Blank.isBlank m.metric = true ∧ Blank.isBlank m.query = true
  | .condition => m.condition = none
  | .threshold => m.threshold.isFinite = false

instance (m : Metric) : DecidablePred (Broken m)
  | .nickname => inferInstanceAs (Decidable (_ = true))
  | .dataSourceId => inferInstanceAs (Decidable (m.dataSourceId = .nil))
  | .metric => inferInstanceAs (Decidable (_ ∧ _))
  | .condition => inferInstanceAs (Decidable (m.condition = none))
  | .threshold => inferInstanceAs (Decidable (_ = false))

def step : MetricRule → Nat
  | .nickname => 0
  | .dataSourceId => 1
  | .metric => 2
  | .condition => 3
  | .threshold => 4

theorem mem_all (r : MetricRule) : r ∈ all := by
  cases r <;> decide

end MetricRule

/-- A rule together with what it is a rule on: the group, or the metric at a place of it. -/
inductive Site where
  | own (rule : GroupRule)
  | item (index : Nat) (rule : MetricRule)
  deriving DecidableEq

namespace Site

def violation : Site → Violation
  | .own rule => rule.violation
  | .item index rule => rule.violation.under (Violations.itemPath "metrics" index)

def field (s : Site) : String :=
  s.violation.field

def Broken (g : MetricsGroup) : Site → Prop
  | .own rule => rule.Broken g
  | .item index rule => ∃ m, g.metrics[index]? = some m ∧ rule.Broken m

def turn : Site → Nat
  | .own _ => 0
  | .item index _ => index + 1

def step : Site → Nat
  | .own rule => rule.step
  | .item _ rule => rule.step

/-- Rules that have their turn together stand in the order in which they are checked. -/
def Precedes (s t : Site) : Prop :=
  s.turn < t.turn ∨ s.turn = t.turn ∧ s.step < t.step

theorem precedes_ne {s t : Site} (precedes : s.Precedes t) : s ≠ t := by
  rintro rfl
  rcases precedes with turn | ⟨-, step⟩
  · exact Nat.lt_irrefl _ turn
  · exact Nat.lt_irrefl _ step

/-! ### Fields -/

theorem itemPath_toList (index : Nat) :
    (Violations.itemPath "metrics" index).toList =
      "metrics[".toList ++ (Digits.ofNat index ++ [']']) := by
  simp [Violations.itemPath, String.toList_append]

theorem field_item_toList (index : Nat) (rule : MetricRule) :
    (item index rule).field.toList =
      "metrics[".toList ++
        (Digits.ofNat index ++ ']' :: '.' :: rule.violation.field.toList) := by
  have path := itemPath_toList index
  simp [field, violation, Violation.under, String.toList_append, path]

theorem metricField_injective {r s : MetricRule}
    (same : r.violation.field = s.violation.field) : r = s := by
  revert same
  cases r <;> cases s <;> decide

theorem groupField_injective {r s : GroupRule}
    (same : r.violation.field = s.violation.field) : r = s := by
  revert same
  cases r <;> cases s <;> decide

/-- The number of a place ends where the bracket closes. -/
theorem index_injective {i j : Nat} {x y : List Char}
    (same : Digits.ofNat i ++ ']' :: x = Digits.ofNat j ++ ']' :: y) : i = j ∧ x = y := by
  have stops (rest : List Char) :
      ∀ c, (']' :: rest).head? = some c → Digits.isDigit c = false := by
    intro c first
    rw [← Option.some.inj first]
    decide
  obtain ⟨leftTaken, leftDropped⟩ :=
    Digits.takeWhile_isDigit (Digits.ofNat_isDigit i) _ (stops x)
  obtain ⟨rightTaken, rightDropped⟩ :=
    Digits.takeWhile_isDigit (Digits.ofNat_isDigit j) _ (stops y)
  rw [same, rightTaken] at leftTaken
  rw [same, rightDropped] at leftDropped
  constructor
  · rw [← Digits.toNat_ofNat i, ← leftTaken, Digits.toNat_ofNat]
  · exact (List.cons.inj leftDropped).2.symm

/-- A field of the group itself has no bracket, so it is never the field of a metric. -/
theorem own_ne_item (own : GroupRule) (index : Nat) (rule : MetricRule) :
    (Site.own own).field ≠ (item index rule).field := by
  intro same
  have member : '[' ∈ (Site.own own).field.toList := by
    rw [same, field_item_toList]
    exact List.mem_append_left _ (by decide)
  revert member
  cases own <;> decide

theorem field_injective {s t : Site} (same : s.field = t.field) : s = t := by
  cases s with
  | own r =>
      cases t with
      | own q => exact congrArg own (groupField_injective same)
      | item j q => exact absurd same (own_ne_item r j q)
  | item i r =>
      cases t with
      | own q => exact absurd same.symm (own_ne_item q i r)
      | item j q =>
          have texts := congrArg String.toList same
          rw [field_item_toList, field_item_toList] at texts
          obtain ⟨places, rules⟩ := index_injective (List.append_cancel_left texts)
          have fields := String.toList_inj.mp (List.cons.inj rules).2
          rw [places, metricField_injective fields]

end Site

/-! ### The violations of a group -/

namespace Violations

theorem list_check (vs : Violations) (failed : Bool) (field message : String) :
    (vs.check failed field message).list =
      vs.list ++ if failed = true then [Violation.mk field message] else [] := by
  cases failed with
  | false => exact (List.append_nil _).symm
  | true => rfl

end Violations

theorem map_filter_eq_flatMap {α β : Type} (keep : α → Prop) [DecidablePred keep] (f : α → β)
    (items : List α) :
    (items.filter fun a => keep a).map f =
      items.flatMap fun a => if keep a then [f a] else [] := by
  induction items with
  | nil => rfl
  | cons a rest ih =>
      rw [List.flatMap_cons, ← ih]
      by_cases kept : keep a <;> simp [kept]

namespace Metric

def brokenRules (m : Metric) : List MetricRule :=
  MetricRule.all.filter fun rule => rule.Broken m

theorem violations_list (m : Metric) :
    m.violations.list = m.brokenRules.map MetricRule.violation := by
  unfold brokenRules MetricRule.all
  rw [map_filter_eq_flatMap]
  simp only [violations, Violations.list_check, Violations.none, List.flatMap_cons,
    List.flatMap_nil, List.append_assoc, List.nil_append, List.append_nil, MetricRule.Broken,
    MetricRule.violation, EntityId.isNil, Option.isNone_iff_eq_none, Bool.and_eq_true,
    Bool.not_eq_true', decide_eq_true_eq]
  -- The two lists differ in how their conditions are decided.
  congr

end Metric

namespace MetricsGroup

def ownSites (g : MetricsGroup) : List Site :=
  (GroupRule.all.filter fun rule => rule.Broken g).map Site.own

def itemSites (index : Nat) (ms : List Metric) : List Site :=
  (ms.zipIdx index).flatMap fun (m, place) => m.brokenRules.map (Site.item place)

def brokenSites (g : MetricsGroup) : List Site :=
  g.ownSites ++ itemSites 0 g.metrics

theorem metricViolations_list (index : Nat) (ms : List Metric) (vs : Violations) :
    (metricViolations index ms vs).list = vs.list ++ (itemSites index ms).map Site.violation := by
  induction ms generalizing index vs with
  | nil => exact (List.append_nil _).symm
  | cons m rest ih =>
      have first : (m.violations.list.map (Violation.under (Violations.itemPath "metrics" index))) =
          (m.brokenRules.map (Site.item index)).map Site.violation := by
        rw [m.violations_list, List.map_map, List.map_map]
        rfl
      have split : itemSites index (m :: rest) =
          m.brokenRules.map (Site.item index) ++ itemSites (index + 1) rest := rfl
      rw [metricViolations, ih, split, List.map_append, ← first, ← List.append_assoc]
      rfl

/-- Validation reports the broken rules, one after the other. -/
theorem violations_list (g : MetricsGroup) :
    g.violations.list = g.brokenSites.map Site.violation := by
  have own : g.ownSites.map Site.violation =
      (Violations.none
        |>.check (Blank.isBlank g.name) "name" "Name is required"
        |>.check g.metrics.isEmpty "metrics" "Metrics is required"
        |>.check g.circleId.isNil "circleId" "CircleID is required").list := by
    unfold ownSites GroupRule.all
    rw [List.map_map, map_filter_eq_flatMap]
    simp only [Violations.list_check, Violations.none, List.flatMap_cons, List.flatMap_nil,
      List.append_assoc, List.nil_append, List.append_nil, GroupRule.Broken, Site.violation,
      GroupRule.violation, Function.comp_apply, EntityId.isNil, List.isEmpty_iff,
      decide_eq_true_eq]
    -- As above, the conditions are the same and decided in two ways.
    congr
  unfold violations brokenSites
  rw [metricViolations_list, List.map_append, own]

theorem violations_fields (g : MetricsGroup) :
    g.violations.list.map Violation.field = g.brokenSites.map Site.field := by
  rw [violations_list, List.map_map]
  rfl

/-! ### Which rules are reported, and in which order -/

theorem mem_brokenRules {m : Metric} {rule : MetricRule} :
    rule ∈ m.brokenRules ↔ rule.Broken m := by
  unfold Metric.brokenRules
  rw [List.mem_filter, decide_eq_true_eq]
  exact and_iff_right rule.mem_all

theorem mem_brokenSites {g : MetricsGroup} {s : Site} : s ∈ g.brokenSites ↔ s.Broken g := by
  unfold brokenSites ownSites itemSites
  rw [List.mem_append, List.mem_map, List.mem_flatMap]
  cases s with
  | own rule =>
      constructor
      · rintro (⟨found, member, same⟩ | ⟨⟨m, place⟩, -, member⟩)
        · rw [← Site.own.inj same]
          exact of_decide_eq_true (p := found.Broken g) (List.mem_filter.mp member).2
        · obtain ⟨found, -, same⟩ := List.mem_map.mp member
          cases same
      · intro broken
        exact .inl ⟨rule, List.mem_filter.mpr ⟨rule.mem_all, decide_eq_true broken⟩, rfl⟩
  | item index rule =>
      constructor
      · rintro (⟨found, -, same⟩ | ⟨⟨m, place⟩, stored, member⟩)
        · cases same
        · obtain ⟨found, broken, same⟩ := List.mem_map.mp member
          obtain ⟨places, rules⟩ := Site.item.inj same
          rw [← places, ← rules]
          exact ⟨m, List.mk_mem_zipIdx_iff_getElem?.mp stored, mem_brokenRules.mp broken⟩
      · rintro ⟨m, stored, broken⟩
        refine .inr ⟨(m, index), List.mk_mem_zipIdx_iff_getElem?.mpr stored, ?_⟩
        exact List.mem_map.mpr ⟨rule, mem_brokenRules.mpr broken, rfl⟩

/-- A field is reported if and only if the rule that it stands for is broken. -/
theorem hasField_iff (g : MetricsGroup) (s : Site) :
    g.violations.hasField s.field = true ↔ s.Broken g := by
  have reported : g.violations.hasField s.field = true ↔
      s.field ∈ g.violations.list.map Violation.field := by
    unfold Violations.hasField
    rw [List.any_eq_true, List.mem_map]
    simp only [decide_eq_true_eq]
  rw [reported, violations_fields, List.mem_map, ← mem_brokenSites]
  constructor
  · rintro ⟨found, member, same⟩
    rw [← Site.field_injective same]
    exact member
  · exact fun member => ⟨s, member, rfl⟩

theorem ownSites_ordered (g : MetricsGroup) : g.ownSites.Pairwise Site.Precedes := by
  have ordered : GroupRule.all.Pairwise fun r q => r.step < q.step := by decide
  exact (ordered.filter _).map Site.own fun _ _ later => .inr ⟨rfl, later⟩

theorem brokenRules_ordered (index : Nat) (m : Metric) :
    (m.brokenRules.map (Site.item index)).Pairwise Site.Precedes := by
  have ordered : MetricRule.all.Pairwise fun r q => r.step < q.step := by decide
  exact (ordered.filter _).map (Site.item index) fun _ _ later => .inr ⟨rfl, later⟩

theorem turn_of_ownSites {g : MetricsGroup} {s : Site} (member : s ∈ g.ownSites) :
    s.turn = 0 := by
  obtain ⟨rule, -, rfl⟩ := List.mem_map.mp member
  rfl

theorem turn_of_itemSites {index : Nat} {ms : List Metric} {s : Site}
    (member : s ∈ itemSites index ms) : index < s.turn := by
  obtain ⟨⟨m, place⟩, stored, ruled⟩ := List.mem_flatMap.mp member
  obtain ⟨rule, -, rfl⟩ := List.mem_map.mp ruled
  exact Nat.lt_succ_of_le (List.le_snd_of_mem_zipIdx stored)

theorem itemSites_ordered (index : Nat) (ms : List Metric) :
    (itemSites index ms).Pairwise Site.Precedes := by
  induction ms generalizing index with
  | nil => exact List.Pairwise.nil
  | cons m rest ih =>
      refine List.pairwise_append.mpr ⟨brokenRules_ordered index m, ih (index + 1), ?_⟩
      intro s here t later
      obtain ⟨rule, -, rfl⟩ := List.mem_map.mp here
      exact .inl (turn_of_itemSites later)

/-- The group's own rules come first, and then rule by rule those of its metrics. -/
theorem brokenSites_ordered (g : MetricsGroup) : g.brokenSites.Pairwise Site.Precedes := by
  refine List.pairwise_append.mpr ⟨ownSites_ordered g, itemSites_ordered 0 g.metrics, ?_⟩
  intro s own t item
  refine .inl ?_
  rw [turn_of_ownSites own]
  exact turn_of_itemSites item

theorem violations_fields_nodup (g : MetricsGroup) :
    (g.violations.list.map Violation.field).Nodup := by
  have distinct : g.brokenSites.Nodup :=
    (brokenSites_ordered g).imp fun precedes => Site.precedes_ne precedes
  rw [violations_fields]
  exact distinct.map fun _ _ same => Site.field_injective same

/-- What a report of a group says: which rules are broken, and nothing else. -/
structure Reported (g : MetricsGroup) (vs : Violations) : Prop where
  unambiguous : (vs.list.map Violation.field).Nodup
  name : vs.hasField "name" = true ↔ Blank.isBlank g.name = true
  metrics : vs.hasField "metrics" = true ↔ g.metrics.length = 0
  circleId : vs.hasField "circleId" = true ↔ g.circleId = .nil
  item : ∀ (index : Nat) (rule : MetricRule),
    vs.hasField (Violations.itemPath "metrics" index ++ "." ++ rule.violation.field) = true ↔
      ∃ inside : index < g.metrics.length, rule.Broken g.metrics[index]
  only : ∀ v ∈ vs.list, v.field ∈ ["name", "metrics", "circleId"] ∨
    ∃ (index : Nat) (rule : MetricRule),
      v.field = Violations.itemPath "metrics" index ++ "." ++ rule.violation.field
  ordered : ∃ sites : List Site,
    vs.list = sites.map Site.violation ∧ sites.Pairwise Site.Precedes

/-- Validation reports every broken rule, each under a field of its own, in their order. -/
theorem violations_reported (g : MetricsGroup) : Reported g g.violations where
  unambiguous := violations_fields_nodup g
  name := hasField_iff g (.own .name)
  metrics := (hasField_iff g (.own .metrics)).trans List.length_eq_zero_iff.symm
  circleId := hasField_iff g (.own .circleId)
  item index rule := by
    have found := hasField_iff g (.item index rule)
    refine found.trans ?_
    constructor
    · rintro ⟨m, stored, broken⟩
      obtain ⟨inside, same⟩ := List.getElem?_eq_some_iff.mp stored
      exact ⟨inside, same ▸ broken⟩
    · rintro ⟨inside, broken⟩
      exact ⟨_, List.getElem?_eq_getElem inside, broken⟩
  only v member := by
    rw [violations_list] at member
    obtain ⟨site, -, rfl⟩ := List.mem_map.mp member
    cases site with
    | own rule =>
        refine .inl ?_
        cases rule <;> decide
    | item index rule => exact .inr ⟨index, rule, rfl⟩
  ordered := ⟨g.brokenSites, violations_list g, brokenSites_ordered g⟩

end MetricsGroup

end RolloutWatch
