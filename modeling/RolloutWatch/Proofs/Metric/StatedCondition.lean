import RolloutWatch.Proofs.Json.Entities
import RolloutWatch.Proofs.Json.Members
import RolloutWatch.Proofs.Json.Numeral
import RolloutWatch.Proofs.Json.Reads
import RolloutWatch.Proofs.Metric.Reported

/-!
What a document may say about the condition of a metric. Null and any text are taken: a text that
names no condition leaves the metric without one, which validation reports. All else is refused
together with the whole document. What is said of one condition has no bearing on anything else
that is read from the document.
-/

namespace RolloutWatch

open Json (Tree Sets WrittenText)

/-- What the member of a metric says about its condition: null names none, and neither does a
text that names no condition; all else says nothing that could be understood. -/
def statedCondition? : Tree → Option (Option Condition)
  | .null => some none
  | .text t => (WrittenText.decode? t).map Condition.ofText?
  | _ => none

namespace Metric

theorem lenientCondition_eq (levels : Nat) (tree : Tree) (supply : Supply) :
    lenientCondition levels tree supply = (statedCondition? tree).map fun c => (c, supply) := by
  cases tree with
  | text t =>
      have read : Json.Decoder.text? (.text t) = WrittenText.decode? t := rfl
      unfold lenientCondition Json.Decoder.nullable Json.Decoder.text Json.Decoder.leaf
      simp only [statedCondition?, read]
      cases WrittenText.decode? t <;> rfl
  | _ => rfl

def withCondition (c : Option Condition) (m : Metric) : Metric :=
  { m with condition := c }

theorem decoder_sets_condition {levels : Nat} {members edited : List (WrittenText × Tree)}
    {value : Tree} {m : Metric} {supply after : Supply}
    (sets : Sets "condition" value members edited)
    (read : decoder levels (.object members) supply = some (m, after)) :
    decoder levels (.object edited) supply =
      (statedCondition? value).map fun c => (m.withCondition c, after) := by
  obtain ⟨fields, taken, built⟩ := Json.Decoder.entity_eq_some_iff.mp read
  obtain ⟨changed, retaken, found, agree⟩ := Json.Fields.ofTree_sets taken sets (by decide)
  have stated (s : Supply) : changed.orDefault "condition" lenientCondition none s =
      (statedCondition? value).map fun c => (c, s) := by
    rw [Json.Fields.orDefault_of_some found, lenientCondition_eq]
  simp only [Json.Decoder.bind_eq_some_iff] at built
  obtain ⟨id, s₁, idRead, groupId, s₂, groupIdRead, sourceId, s₃, sourceIdRead, nickname, s₄,
    nicknameRead, query, s₅, queryRead, metric, s₆, metricRead, filters, s₇, filtersRead,
    groupBy, s₈, groupByRead, condition, s₉, conditionRead, threshold, s₁₀, thresholdRead,
    circleId, s₁₁, circleIdRead, execution, s₁₂, executionRead, createdAt, s₁₃, createdAtRead,
    done⟩ := built
  cases done
  -- Only the reading of the condition touches what has changed, and it takes nothing.
  have unmoved : s₉ = s₈ := by
    unfold Json.Fields.orDefault Json.Fields.orElse at conditionRead
    cases held : fields.find? "condition" with
    | none =>
        rw [held] at conditionRead
        cases conditionRead
        rfl
    | some tree =>
        rw [held] at conditionRead
        simp only [lenientCondition_eq, Option.map_eq_some_iff] at conditionRead
        obtain ⟨c, -, same⟩ := conditionRead
        exact (Prod.mk.inj same).2.symm
  subst unmoved
  refine (congrFun (Json.Decoder.entity_of_fields retaken) supply).trans ?_
  simp (disch := decide) only [agree.orElse, agree.orDefault]
  rw [Json.Decoder.bind_of_some idRead, Json.Decoder.bind_of_some groupIdRead,
    Json.Decoder.bind_of_some sourceIdRead, Json.Decoder.bind_of_some nicknameRead,
    Json.Decoder.bind_of_some queryRead, Json.Decoder.bind_of_some metricRead,
    Json.Decoder.bind_of_some filtersRead, Json.Decoder.bind_of_some groupByRead]
  have stated := stated s₉
  cases said : statedCondition? value with
  | none =>
      rw [said] at stated
      exact Json.Decoder.bind_of_none stated
  | some c =>
      rw [said] at stated
      rw [Json.Decoder.bind_of_some stated, Json.Decoder.bind_of_some thresholdRead,
        Json.Decoder.bind_of_some circleIdRead, Json.Decoder.bind_of_some executionRead,
        Json.Decoder.bind_of_some createdAtRead]
      rfl

end Metric

/-! ### Documents of groups -/

/-- Two documents of groups differ in the condition member of the metric object at a place: in
the second one it has got the given value, or has been put in with it. -/
inductive Reconditioned (index : Nat) (value : Tree) : Tree → Tree → Prop where
  | intro {before after metric edited : List (WrittenText × Tree)} {key : WrittenText}
      {metrics : List Tree} (named : WrittenText.decode? key = some "metrics")
      (held : metrics[index]? = some (.object metric))
      (sets : Sets "condition" value metric edited) :
      Reconditioned index value (.object (before ++ (key, .array metrics) :: after))
        (.object (before ++ (key, .array (metrics.set index (.object edited))) :: after))

namespace MetricsGroup

def withCondition (g : MetricsGroup) (index : Nat) (c : Option Condition) : MetricsGroup :=
  { g with metrics := g.metrics.modify index (Metric.withCondition c) }

theorem decoder_reconditioned {levels index : Nat} {tree edited value : Tree} {g : MetricsGroup}
    {supply after : Supply} (replaced : Reconditioned index value tree edited)
    (read : decoder levels tree supply = some (g, after)) :
    index < g.metrics.length ∧ decoder levels edited supply =
      (statedCondition? value).map fun c => (g.withCondition index c, after) := by
  obtain @⟨_, _, members, changed, _, _, named, held, sets⟩ := replaced
  obtain ⟨fields, taken, built⟩ := Json.Decoder.entity_eq_some_iff.mp read
  have listed := Json.Fields.find?_of_member taken named (by decide)
  obtain ⟨_, retaken, found, agree⟩ :=
    Json.Fields.ofTree_sets taken (.replaced _ named) (by decide)
  simp only [Json.Decoder.bind_eq_some_iff] at built
  obtain ⟨id, s₁, idRead, name, s₂, nameRead, metrics, s₃, metricsRead, workspaceId, s₄,
    workspaceIdRead, circleId, s₅, circleIdRead, createdAt, s₆, createdAtRead, done⟩ := built
  cases done
  rw [Json.Fields.orDefault_of_some listed] at metricsRead
  have metricChanged (supply : Supply) (m : Metric) (after : Supply)
      (metricRead : Metric.decoder (fields.levels - 1) (.object members) supply =
        some (m, after)) :
      Metric.decoder (fields.levels - 1) (.object changed) supply =
        ((statedCondition? value).map Metric.withCondition).map fun f => (f m, after) := by
    rw [Metric.decoder_sets_condition sets metricRead, Option.map_map]
    rfl
  obtain ⟨inside, edit⟩ := Json.Decoder.list_set held metricChanged metricsRead
  refine ⟨inside, (congrFun (Json.Decoder.entity_of_fields retaken) supply).trans ?_⟩
  simp (disch := decide) only [agree.orElse, agree.orDefault]
  rw [Json.Decoder.bind_of_some idRead, Json.Decoder.bind_of_some nameRead,
    Json.Fields.orDefault_of_some found, agree.levels]
  cases said : statedCondition? value with
  | none =>
      rw [said] at edit
      exact Json.Decoder.bind_of_none edit
  | some c =>
      rw [said] at edit
      rw [Json.Decoder.bind_of_some edit, Json.Decoder.bind_of_some workspaceIdRead,
        Json.Decoder.bind_of_some circleIdRead, Json.Decoder.bind_of_some createdAtRead]
      rfl

theorem hasField_withCondition {g : MetricsGroup} {index : Nat}
    (inside : index < g.metrics.length) (c : Option Condition) :
    (g.withCondition index c).violations.hasField
        (Violations.itemPath "metrics" index ++ "." ++ "condition") = true ↔ c = none := by
  refine (hasField_iff (g.withCondition index c) (.item index .condition)).trans ?_
  have stored : (g.withCondition index c).metrics[index]? =
      some (g.metrics[index].withCondition c) := by
    unfold withCondition
    rw [List.getElem?_modify_eq, List.getElem?_eq_getElem inside]
    rfl
  constructor
  · rintro ⟨m, found, broken⟩
    rw [stored] at found
    rw [← Option.some.inj found] at broken
    exact broken
  · exact fun none => ⟨_, stored, none⟩

/-- A document whose only change is what one metric states as its condition is read as the same
group with that condition, and refused if the statement is none. Validation reports the condition
of a metric that is left without one. -/
theorem restated_condition {document edited : List UInt8} {tree edit value : Tree} {index : Nat}
    {g : MetricsGroup} {supply after : Supply} (parsed : Tree.ofBytes? document = some tree)
    (reparsed : Tree.ofBytes? edited = some edit) (replaced : Reconditioned index value tree edit)
    (accepted : ofDocument? document supply = some (g, after)) :
    ofDocument? edited supply =
        ((statedCondition? value).map fun c => (g.withCondition index c, after)) ∧
      ∀ c, (g.withCondition index c).violations.hasField
        (Violations.itemPath "metrics" index ++ "." ++ "condition") = true ↔ c = none := by
  have read : decoder Json.levelLimit tree supply = some (g, after) := by
    unfold ofDocument? Json.Decoder.ofBytes? at accepted
    rw [parsed, Option.bind_some] at accepted
    exact accepted
  obtain ⟨inside, edition⟩ := decoder_reconditioned replaced read
  refine ⟨?_, hasField_withCondition inside⟩
  unfold ofDocument? Json.Decoder.ofBytes?
  rw [reparsed, Option.bind_some]
  exact edition

/-! ### A document with one metric -/

def canaryStating (condition : Json.Value) : Json.Value :=
  .object [("metrics", .array [.object [("condition", condition), ("nickname", .text "errors")]])]

theorem canaryStating_parsed {condition : Json.Value} (legible : condition.Legible) :
    Tree.ofBytes? (canaryStating condition).bytes = some (canaryStating condition).tree :=
  Json.Value.ofBytes_bytes _ ⟨⟨⟨legible, trivial, trivial⟩, trivial⟩, trivial⟩

theorem canaryStating_reconditioned (old new : Json.Value) :
    Reconditioned 0 new.tree (canaryStating old).tree (canaryStating new).tree := by
  have sets := @Sets.replaced "condition" new.tree []
    [(Json.written "nickname", .text (Json.written "errors"))] (Json.written "condition") old.tree
    (WrittenText.decode_written "condition")
  exact @Reconditioned.intro 0 new.tree [] [] _ _ (Json.written "metrics") [_]
    (WrittenText.decode_written "metrics") rfl sets

theorem canary_accepted :
    ∃ g after, ofDocument? (canaryStating (.text "EQUAL")).bytes .idle = some (g, after) := by
  have accepted : (ofDocument? (canaryStating (.text "EQUAL")).bytes .idle).isSome = true := by
    decide +kernel
  obtain ⟨⟨g, after⟩, read⟩ := Option.isSome_iff_exists.mp accepted
  exact ⟨g, after, read⟩

theorem unknown_condition_restated : ∃ tree edit g after,
    Tree.ofBytes? (canaryStating (.text "EQUAL")).bytes = some tree ∧
      Tree.ofBytes? (canaryStating (.text "BETWEEN")).bytes = some edit ∧
      Reconditioned 0 (.text (Json.written "BETWEEN")) tree edit ∧
      ofDocument? (canaryStating (.text "EQUAL")).bytes .idle = some (g, after) ∧
      ofDocument? (canaryStating (.text "BETWEEN")).bytes .idle =
        some (g.withCondition 0 none, after) ∧
      (g.withCondition 0 none).violations.hasField "metrics[0].condition" = true := by
  have parsed := canaryStating_parsed (Json.Decoder.text_legible "EQUAL")
  have reparsed := canaryStating_parsed (Json.Decoder.text_legible "BETWEEN")
  have replaced := canaryStating_reconditioned (.text "EQUAL") (.text "BETWEEN")
  obtain ⟨g, after, accepted⟩ := canary_accepted
  obtain ⟨read, reported⟩ := restated_condition parsed reparsed replaced accepted
  have unknown : statedCondition? (.text (Json.written "BETWEEN")) = some none := by
    decide +kernel
  refine ⟨_, _, g, after, parsed, reparsed, replaced, accepted, ?_, (reported none).mpr rfl⟩
  exact read.trans (congrArg (Option.map _) unknown)

/-! ### What cannot be put in a condition's place -/

/-- Whatever document the value is put into as a condition, it is read as before, with a condition
or without one, and validation reports a condition that is missing. -/
def Forgiven (value : Tree) : Prop :=
  ∀ {document edited : List UInt8} {tree edit : Tree} {index : Nat} {g : MetricsGroup}
    {supply after : Supply}, Tree.ofBytes? document = some tree →
    Tree.ofBytes? edited = some edit → Reconditioned index value tree edit →
    ofDocument? document supply = some (g, after) →
    ∃ c, ofDocument? edited supply = some (g.withCondition index c, after) ∧
      (c = none → (g.withCondition index c).violations.hasField
        (Violations.itemPath "metrics" index ++ "." ++ "condition") = true)

/-- A number is refused, and the whole document with it. -/
theorem values_not_all_forgiven : ¬ ∀ value, Forgiven value := by
  intro forgiven
  have number : (Json.Value.number (.integer 5)).Legible :=
    Json.Number.legible_of_ofChars (Json.ofChars_ofInt 5)
  have parsed := canaryStating_parsed (Json.Decoder.text_legible "EQUAL")
  have reparsed := canaryStating_parsed number
  have replaced := canaryStating_reconditioned (.text "EQUAL") (.number (.integer 5))
  obtain ⟨g, after, accepted⟩ := canary_accepted
  obtain ⟨c, read, -⟩ := forgiven _ parsed reparsed replaced accepted
  have refused :
      (ofDocument? (canaryStating (.number (.integer 5))).bytes .idle).isNone = true := by
    decide +kernel
  rw [read] at refused
  cases refused

end MetricsGroup

end RolloutWatch
