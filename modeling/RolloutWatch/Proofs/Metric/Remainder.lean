import RolloutWatch.Proofs.Json.Pruned
import RolloutWatch.Proofs.Metric.Reported

/-!
Documents that leave something out. Whatever is taken away from the document of a group or of its
metrics, the rest is read as it was, and a field that is gone has its default: nothing, or what is
drawn next from the supply. Validation then reports the fields that a group cannot do without.
-/

namespace RolloutWatch

open Json (Tree Pruned WrittenText)

namespace Metric

/-- The metric as it is read from a document that states less of it. Identifiers and times that
are not stated are drawn one after the other. -/
def remainder (rest : Tree) (m : Metric) (supply : Supply) : Metric × Supply :=
  let states := rest.states fieldNames
  let (id, supply) := if states "id" then (m.id, supply) else supply.freshId
  let (execution, supply) :=
    if states "execution" then (m.execution, supply) else MetricExecution.fresh .nil supply
  let (createdAt, supply) := if states "createdAt" then (m.createdAt, supply) else supply.now
  ({ id
     metricsGroupId := if states "metricsGroupId" then m.metricsGroupId else .nil
     dataSourceId := if states "dataSourceId" then m.dataSourceId else .nil
     nickname := if states "nickname" then m.nickname else ""
     query := if states "query" then m.query else ""
     metric := if states "metric" then m.metric else ""
     filters := if states "filters" then m.filters else []
     groupBy := if states "groupBy" then m.groupBy else []
     condition := if states "condition" then m.condition else none
     threshold := if states "threshold" then m.threshold else .zero
     circleId := if states "circleId" then m.circleId else .nil
     execution
     createdAt }, supply)

/-- The metrics of a list, each from what is left of its document. -/
def remainders : List Tree → List Metric → Supply → List Metric × Supply
  | rest :: trees, m :: ms, supply =>
      let (m, supply) := m.remainder rest supply
      let (ms, supply) := remainders trees ms supply
      (m :: ms, supply)
  | _, _, supply => ([], supply)

/-- The document of a metric, without some of its members if it is an object. -/
inductive Thinned : Tree → Tree → Prop where
  | object {members kept : List (WrittenText × Tree)} (sublist : kept.Sublist members) :
      Thinned (.object members) (.object kept)
  | whole (tree : Tree) : Thinned tree tree

theorem pruned_of_sublist {members kept : List (WrittenText × Tree)}
    (sublist : kept.Sublist members) : Pruned (fun _ => Eq) members kept := by
  induction sublist with
  | slnil => exact .nil
  | cons member _ ih => exact .dropped member ih
  | cons_cons member _ ih => exact .held rfl ih

/-- What is left of the document has the fields that it states, with their values. -/
theorem fields_thinned {levels : Nat} {tree rest : Tree} {fields : Json.Fields}
    (thinned : Thinned tree rest)
    (taken : Json.Fields.ofTree? fieldNames levels tree = some fields) :
    ∃ left, Json.Fields.ofTree? fieldNames levels rest = some left ∧
      Json.Fields.Edited (fun _ => Eq) fieldNames rest fields left := by
  cases thinned with
  | object sublist =>
      obtain ⟨left, retaken, edited⟩ := Json.Fields.ofTree_pruned (pruned_of_sublist sublist) taken
      refine ⟨left, retaken, { edited with found := fun name tree found => ?_ }⟩
      obtain ⟨old, held, -, -, same⟩ := edited.found name tree found
      exact ⟨old, held, same⟩
  | whole => exact ⟨fields, taken, Json.Fields.edited_self taken⟩

theorem decoder_thinned {levels : Nat} {tree rest : Tree} {m : Metric} {supply after : Supply}
    (thinned : Thinned tree rest) (read : decoder levels tree supply = some (m, after))
    (other : Supply) : decoder levels rest other = some (m.remainder rest other) := by
  obtain ⟨fields, taken, built⟩ := Json.Decoder.entity_eq_some_iff.mp read
  obtain ⟨left, retaken, edited⟩ := fields_thinned thinned taken
  have same (old tree : Tree) (equal : old = tree) : old = tree := equal
  simp only [Json.Decoder.bind_eq_some_iff] at built
  obtain ⟨id, s₁, idRead, groupId, s₂, groupIdRead, sourceId, s₃, sourceIdRead, nickname, s₄,
    nicknameRead, query, s₅, queryRead, metric, s₆, metricRead, filters, s₇, filtersRead,
    groupBy, s₈, groupByRead, condition, s₉, conditionRead, threshold, s₁₀, thresholdRead,
    circleId, s₁₁, circleIdRead, execution, s₁₂, executionRead, createdAt, s₁₃, createdAtRead,
    done⟩ := built
  cases done
  refine (congrFun (Json.Decoder.entity_of_fields retaken) other).trans ?_
  have identifier := EntityId.decoder_steady
  have text := Json.Decoder.text_steady
  rw [Json.Decoder.bind_of_taken (edited.orDraw (by decide) same identifier
      Json.Decoder.freshId_apply idRead other),
    Json.Decoder.bind_of_some (edited.orDefault (by decide) same identifier groupIdRead _),
    Json.Decoder.bind_of_some (edited.orDefault (by decide) same identifier sourceIdRead _),
    Json.Decoder.bind_of_some (edited.orDefault (by decide) same text nicknameRead _),
    Json.Decoder.bind_of_some (edited.orDefault (by decide) same text queryRead _),
    Json.Decoder.bind_of_some (edited.orDefault (by decide) same text metricRead _),
    Json.Decoder.bind_of_some (edited.orDefault (by decide) same
      (Json.Decoder.steady_list MetricFilter.decoder_steady) filtersRead _),
    Json.Decoder.bind_of_some (edited.orDefault (by decide) same
      (Json.Decoder.steady_list text) groupByRead _),
    Json.Decoder.bind_of_some (edited.orDefault (by decide) same lenientCondition_steady
      conditionRead _),
    Json.Decoder.bind_of_some (edited.orDefault (by decide) same Json.Decoder.binary64_steady
      thresholdRead _),
    Json.Decoder.bind_of_some (edited.orDefault (by decide) same identifier circleIdRead _),
    Json.Decoder.bind_of_taken (edited.orDraw (by decide) same MetricExecution.decoder_steady
      (fun _ => rfl) executionRead _),
    Json.Decoder.bind_of_taken (edited.orDraw (by decide) same Instant.decoder_steady
      Json.Decoder.now_apply createdAtRead _)]
  rfl

theorem items_thinned {levels : Nat} {trees rests : List Tree}
    (thinned : List.Forall₂ Thinned trees rests) {ms : List Metric} {supply after : Supply}
    (read : Json.Decoder.items decoder levels trees supply = some (ms, after)) (other : Supply) :
    rests.length = ms.length ∧
      Json.Decoder.items decoder levels rests other = some (remainders rests ms other) := by
  induction thinned generalizing ms supply other with
  | nil =>
      cases read
      exact ⟨rfl, rfl⟩
  | @cons tree rest trees rests first _ ih =>
      obtain ⟨m, between, readFirst, more⟩ := Json.Decoder.bind_eq_some_iff.mp read
      obtain ⟨others, last, readRest, done⟩ := Json.Decoder.bind_eq_some_iff.mp more
      cases done
      obtain ⟨same, later⟩ := ih readRest (m.remainder rest other).2
      refine ⟨congrArg Nat.succ same, ?_⟩
      rw [Json.Decoder.items, Json.Decoder.bind_of_taken (decoder_thinned first readFirst other),
        Json.Decoder.bind_of_taken later]
      rfl

/-- A metric is what is left of it, whatever the ones before it have drawn. -/
theorem getElem?_remainders {trees : List Tree} {ms : List Metric} {index : Nat} {rest : Tree}
    (same : trees.length = ms.length) (held : trees[index]? = some rest) (supply : Supply) :
    ∃ m drawn, (remainders trees ms supply).1[index]? = some (remainder rest m drawn).1 := by
  induction trees generalizing ms index supply with
  | nil => cases held
  | cons tree trees ih =>
      cases ms with
      | nil => cases same
      | cons m ms =>
          cases index with
          | zero =>
              obtain rfl : tree = rest := Option.some.inj held
              exact ⟨m, supply, rfl⟩
          | succ index => exact ih (Nat.succ.inj same) held _

end Metric

/-! ### Documents of groups -/

namespace MetricsGroup

inductive ThinnedMember (key : WrittenText) : Tree → Tree → Prop where
  | kept (tree : Tree) : ThinnedMember key tree tree
  | metrics {trees rests : List Tree} (named : WrittenText.decode? key = some "metrics")
      (thinned : List.Forall₂ Metric.Thinned trees rests) :
      ThinnedMember key (.array trees) (.array rests)

/-- The document of a group, an object, without some of its members and some of the members of
its metrics. -/
inductive Thinned : Tree → Tree → Prop where
  | object {members kept : List (WrittenText × Tree)} (pruned : Pruned ThinnedMember members kept) :
      Thinned (.object members) (.object kept)

/-- The documents of the metrics that the document of a group states. -/
def metricTrees (tree : Tree) : List Tree :=
  match tree.field? fieldNames "metrics" with
  | some (.array trees) => trees
  | _ => []

def remainder (rest : Tree) (g : MetricsGroup) (supply : Supply) : MetricsGroup × Supply :=
  let states := rest.states fieldNames
  let (id, supply) := if states "id" then (g.id, supply) else supply.freshId
  let (metrics, supply) :=
    if states "metrics" then Metric.remainders (metricTrees rest) g.metrics supply
    else ([], supply)
  let (createdAt, supply) := if states "createdAt" then (g.createdAt, supply) else supply.now
  ({ id
     name := if states "name" then g.name else ""
     metrics
     workspaceId := if states "workspaceId" then g.workspaceId else .nil
     circleId := if states "circleId" then g.circleId else .nil
     createdAt }, supply)

theorem eq_of_thinnedMember {name : String} (other : name ≠ "metrics") (old tree : Tree)
    (edit : ∃ key, WrittenText.decode? key = some name ∧ ThinnedMember key old tree) :
    old = tree := by
  obtain ⟨key, decoded, member⟩ := edit
  cases member with
  | kept => rfl
  | metrics named => exact absurd (Option.some.inj (decoded.symm.trans named)) other

theorem trees_of_thinnedMember {key : WrittenText} {trees : List Tree} {tree : Tree}
    (member : ThinnedMember key (.array trees) tree) :
    ∃ rests, tree = .array rests ∧ List.Forall₂ Metric.Thinned trees rests := by
  cases member with
  | kept => exact ⟨trees, rfl, List.forall₂_same.mpr fun tree _ => .whole tree⟩
  | metrics _ thinned => exact ⟨_, rfl, thinned⟩

variable {rest : Tree} {before left : Json.Fields} {ms : List Metric} {supply after : Supply}

/-- The metrics are read one by one, each from what is left of it. -/
theorem metrics_thinned
    (edited : Json.Fields.Edited
      (fun name old tree => ∃ key, WrittenText.decode? key = some name ∧ ThinnedMember key old tree)
      fieldNames rest before left)
    (read : before.orDefault "metrics" (Json.Decoder.list Metric.decoder) [] supply =
      some (ms, after)) (other : Supply) :
    (rest.states fieldNames "metrics" = true → (metricTrees rest).length = ms.length) ∧
      left.orDefault "metrics" (Json.Decoder.list Metric.decoder) [] other =
        some (if rest.states fieldNames "metrics" then
          Metric.remainders (metricTrees rest) ms other else ([], other)) := by
  have named : left.find? "metrics" = rest.field? fieldNames "metrics" :=
    edited.named "metrics" (by decide)
  unfold metricTrees Tree.states
  unfold Json.Fields.orDefault Json.Fields.orElse at read ⊢
  rw [← named]
  cases found : left.find? "metrics" with
  | none => exact ⟨nofun, rfl⟩
  | some tree =>
      obtain ⟨old, held, key, -, member⟩ := edited.found "metrics" tree found
      rw [held] at read
      obtain ⟨trees, rfl, deep, all⟩ := Json.Decoder.list_eq_some_iff.mp read
      obtain ⟨rests, rfl, thinned⟩ := trees_of_thinnedMember member
      obtain ⟨same, later⟩ := Metric.items_thinned thinned all other
      refine ⟨fun _ => same, ?_⟩
      rw [edited.levels]
      exact Json.Decoder.list_eq_some_iff.mpr ⟨rests, rfl, deep, later⟩

theorem decoder_remainder {levels : Nat} {tree : Tree} {g : MetricsGroup}
    (thinned : Thinned tree rest) (read : decoder levels tree supply = some (g, after))
    (other : Supply) :
    (rest.states fieldNames "metrics" = true →
        (metricTrees rest).length = g.metrics.length) ∧
      decoder levels rest other = some (g.remainder rest other) := by
  obtain @⟨_, _, pruned⟩ := thinned
  obtain ⟨fields, taken, built⟩ := Json.Decoder.entity_eq_some_iff.mp read
  obtain ⟨left, retaken, edited⟩ := Json.Fields.ofTree_pruned pruned taken
  simp only [Json.Decoder.bind_eq_some_iff] at built
  obtain ⟨id, s₁, idRead, name, s₂, nameRead, metrics, s₃, metricsRead, workspaceId, s₄,
    workspaceIdRead, circleId, s₅, circleIdRead, createdAt, s₆, createdAtRead, done⟩ := built
  cases done
  have identifier := EntityId.decoder_steady
  refine ⟨(metrics_thinned edited metricsRead other).1, ?_⟩
  refine (congrFun (Json.Decoder.entity_of_fields retaken) other).trans ?_
  rw [Json.Decoder.bind_of_taken (edited.orDraw (by decide) (eq_of_thinnedMember (by decide))
      identifier Json.Decoder.freshId_apply idRead other),
    Json.Decoder.bind_of_some (edited.orDefault (by decide) (eq_of_thinnedMember (by decide))
      Json.Decoder.text_steady nameRead _),
    Json.Decoder.bind_of_taken (metrics_thinned edited metricsRead _).2,
    Json.Decoder.bind_of_some (edited.orDefault (by decide) (eq_of_thinnedMember (by decide))
      identifier workspaceIdRead _),
    Json.Decoder.bind_of_some (edited.orDefault (by decide) (eq_of_thinnedMember (by decide))
      identifier circleIdRead _),
    Json.Decoder.bind_of_taken (edited.orDraw (by decide) (eq_of_thinnedMember (by decide))
      Instant.decoder_steady Json.Decoder.now_apply createdAtRead _)]
  rfl

end MetricsGroup

/-! ### Omissions are reported -/

/-- The document of a metric leaves out what the rule asks for. A metric without a threshold is
compared with zero, so there is nothing to ask for. -/
def MetricRule.Omitted (metric : Tree) : MetricRule → Prop
  | .nickname => metric.states Metric.fieldNames "nickname" = false
  | .dataSourceId => metric.states Metric.fieldNames "dataSourceId" = false
  | .metric =>
      metric.states Metric.fieldNames "metric" = false ∧
        metric.states Metric.fieldNames "query" = false
  | .condition => metric.states Metric.fieldNames "condition" = false
  | .threshold => False

theorem Metric.broken_of_omitted {metric : Tree} {rule : MetricRule}
    (omitted : rule.Omitted metric) (m : Metric) (supply : Supply) :
    rule.Broken (m.remainder metric supply).1 := by
  cases rule with
  | nickname =>
      have empty : (m.remainder metric supply).1.nickname = "" :=
        if_neg (ne_true_of_eq_false omitted)
      exact congrArg Blank.isBlank empty
  | dataSourceId => exact if_neg (ne_true_of_eq_false omitted)
  | metric =>
      have unnamed : (m.remainder metric supply).1.metric = "" :=
        if_neg (ne_true_of_eq_false omitted.1)
      have unasked : (m.remainder metric supply).1.query = "" :=
        if_neg (ne_true_of_eq_false omitted.2)
      exact ⟨congrArg Blank.isBlank unnamed, congrArg Blank.isBlank unasked⟩
  | condition => exact if_neg (ne_true_of_eq_false omitted)
  | threshold => exact omitted.elim

namespace MetricsGroup

/-- What a group cannot do without is reported where its document leaves it out. -/
structure OmissionsReported (rest : Tree) (vs : Violations) : Prop where
  own : ∀ rule : GroupRule,
    rest.states fieldNames rule.violation.field = false →
      vs.hasField rule.violation.field = true
  item : ∀ (index : Nat) (metric : Tree) (rule : MetricRule),
    (metricTrees rest)[index]? = some metric → rule.Omitted metric →
      vs.hasField (Violations.itemPath "metrics" index ++ "." ++ rule.violation.field) = true

theorem broken_of_unstated {rest : Tree} {rule : GroupRule}
    (unstated : rest.states fieldNames rule.violation.field = false) (g : MetricsGroup)
    (supply : Supply) : rule.Broken (g.remainder rest supply).1 := by
  cases rule with
  | name =>
      have empty : (g.remainder rest supply).1.name = "" := if_neg (ne_true_of_eq_false unstated)
      exact congrArg Blank.isBlank empty
  | metrics => exact congrArg Prod.fst (if_neg (ne_true_of_eq_false unstated))
  | circleId => exact if_neg (ne_true_of_eq_false unstated)

theorem states_of_metricTrees {rest : Tree} {index : Nat} {metric : Tree}
    (held : (metricTrees rest)[index]? = some metric) :
    rest.states fieldNames "metrics" = true := by
  unfold metricTrees at held
  unfold Tree.states
  split at held
  · rename_i stated
    rw [stated]
    rfl
  · cases held

theorem omissions_reported {rest : Tree} {g : MetricsGroup}
    (same : rest.states fieldNames "metrics" = true →
      (metricTrees rest).length = g.metrics.length) (supply : Supply) :
    OmissionsReported rest (g.remainder rest supply).1.violations where
  own rule unstated := (hasField_iff _ (.own rule)).mpr (broken_of_unstated unstated g supply)
  item index metric rule held omitted := by
    have stated := states_of_metricTrees held
    have metrics : (g.remainder rest supply).1.metrics =
        (Metric.remainders (metricTrees rest) g.metrics
          (if rest.states fieldNames "id" then (g.id, supply) else supply.freshId).2).1 :=
      congrArg Prod.fst (if_pos stated)
    obtain ⟨m, drawn, kept⟩ := Metric.getElem?_remainders (same stated) held _
    have broken : (Site.item index rule).Broken (g.remainder rest supply).1 :=
      ⟨_, metrics ▸ kept, Metric.broken_of_omitted omitted m drawn⟩
    exact (hasField_iff _ (.item index rule)).mpr broken

/-- Whatever is taken away from the document of a group and from the documents of its metrics, it
stays readable. What it still states is read as before, what it has lost has its default, and
validation reports what a group cannot do without. -/
theorem thinned_document {document edited : List UInt8} {tree rest : Tree} {g : MetricsGroup}
    {supply after : Supply} (parsed : Tree.ofBytes? document = some tree)
    (reparsed : Tree.ofBytes? edited = some rest) (thinned : Thinned tree rest)
    (accepted : ofDocument? document supply = some (g, after)) (other : Supply) :
    ofDocument? edited other = some (g.remainder rest other) ∧
      (rest.states fieldNames "metrics" = true →
        (metricTrees rest).length = g.metrics.length) ∧
      OmissionsReported rest (g.remainder rest other).1.violations := by
  unfold ofDocument? at accepted ⊢
  rw [Json.Decoder.ofBytes_of_parsed parsed] at accepted
  rw [Json.Decoder.ofBytes_of_parsed reparsed]
  obtain ⟨same, left⟩ := decoder_remainder thinned accepted other
  exact ⟨left, same, omissions_reported same other⟩

/-! ### A document with one metric -/

def namedCanary : Json.Value :=
  .object [("name", .text "canary"),
    ("metrics", .array [.object [("nickname", .text "errors"), ("condition", .text "EQUAL")]])]

def anonymousCanary : Json.Value :=
  .object [("metrics", .array [.object [("condition", .text "EQUAL")]])]

theorem anonymousCanary_thinned : Thinned namedCanary.tree anonymousCanary.tree := by
  have metric := Metric.Thinned.object
    (.cons (Json.written "nickname", (Json.Value.text "errors").tree)
      (.cons_cons (Json.written "condition", (Json.Value.text "EQUAL").tree) .slnil))
  have metrics : ThinnedMember (Json.written "metrics") _ _ :=
    .metrics (WrittenText.decode_written "metrics") (.cons metric .nil)
  exact .object (.dropped _ (.held metrics .nil))

theorem anonymous_canary_reported : ∃ tree rest g after,
    Tree.ofBytes? namedCanary.bytes = some tree ∧
      Tree.ofBytes? anonymousCanary.bytes = some rest ∧ Thinned tree rest ∧
      ofDocument? namedCanary.bytes .idle = some (g, after) ∧
      ofDocument? anonymousCanary.bytes .idle = some (g.remainder rest .idle) ∧
      (g.remainder rest .idle).1.violations.hasField "name" = true ∧
      (g.remainder rest .idle).1.violations.hasField "metrics[0].nickname" = true := by
  have parsed : Tree.ofBytes? namedCanary.bytes = some namedCanary.tree :=
    Json.Value.ofBytes_bytes _ ⟨trivial, ⟨⟨trivial, trivial, trivial⟩, trivial⟩, trivial⟩
  have reparsed : Tree.ofBytes? anonymousCanary.bytes = some anonymousCanary.tree :=
    Json.Value.ofBytes_bytes _ ⟨⟨⟨trivial, trivial⟩, trivial⟩, trivial⟩
  have readable : (ofDocument? namedCanary.bytes .idle).isSome = true := by
    decide +kernel
  obtain ⟨⟨g, after⟩, accepted⟩ := Option.isSome_iff_exists.mp readable
  obtain ⟨read, -, reported⟩ :=
    thinned_document parsed reparsed anonymousCanary_thinned accepted .idle
  have anonymous : anonymousCanary.tree.states fieldNames "name" = false := by
    decide +kernel
  have held : (metricTrees anonymousCanary.tree)[0]? =
      some (Json.Value.object [("condition", .text "EQUAL")]).tree := rfl
  have unnamed : MetricRule.nickname.Omitted
      (Json.Value.object [("condition", .text "EQUAL")]).tree := by
    unfold MetricRule.Omitted
    decide +kernel
  exact ⟨_, _, g, after, parsed, reparsed, anonymousCanary_thinned, accepted, read,
    reported.own .name anonymous, reported.item 0 _ .nickname held unnamed⟩

end MetricsGroup

end RolloutWatch
