import RolloutWatch.Proofs.Relational.Reading
import RolloutWatch.Proofs.Text.Order
import RolloutWatch.Proofs.Time.TimeLine

/-!
Lists that are ordered by columns of times. Such a column holds text, and its texts are compared by
their bytes. In common years that is the order on the line of time, so that what is read from the
ordered rows comes in the order of its times.
-/

namespace RolloutWatch

def Chronological {α : Type} (time : α → Instant) (items : List α) : Prop :=
  items.Pairwise fun a b => (time a).moment ≤ (time b).moment

namespace Column

theorem lessThan_instantText_iff {t u : Instant} (tCommon : t.InCommonYears)
    (uCommon : u.InCommonYears) :
    Utf8.lessThan (Utf8.ofString (instantText t)) (Utf8.ofString (instantText u)) = true ↔
      t.moment < u.moment := by
  rw [Utf8.lessThan_ofString, decide_eq_true_eq, instantText_lt_iff tCommon uCommon,
    Instant.before_iff_moment_lt]

theorem instantText_bytes_inj {t u : Instant} (tCommon : t.InCommonYears)
    (uCommon : u.InCommonYears) :
    Utf8.ofString (instantText t) = Utf8.ofString (instantText u) ↔ t.moment = u.moment := by
  constructor
  · intro same
    have notBefore := (lessThan_instantText_iff tCommon uCommon).not
    have notAfter := (lessThan_instantText_iff uCommon tCommon).not
    rw [same, Utf8.lessThan_ofString, decide_eq_true_eq] at notBefore notAfter
    exact le_antisymm (not_lt.mp (notAfter.mp (lt_irrefl _)))
      (not_lt.mp (notBefore.mp (lt_irrefl _)))
  · intro same
    rw [Instant.moment_injective same]

theorem instantText_le_iff_moment {t u : Instant} (tCommon : t.InCommonYears)
    (uCommon : u.InCommonYears) : instantText t ≤ instantText u ↔ t.moment ≤ u.moment := by
  rw [instantText_le_iff tCommon uCommon, ← Bool.not_eq_true, Instant.before_iff_moment_lt,
    not_lt]

end Column

namespace Database

/-! ### What is read from ordered rows -/

section

variable {ρ α : Type} {column : ρ → String} {time : α → Instant} {read : ρ → Parsed α}

theorem mergeSort_instantText {time : ρ → Instant} {rows : List ρ}
    (written : ∀ r ∈ rows, (time r).InCommonYears ∧ column r = Column.instantText (time r)) :
    rows.mergeSort (fun a b => column a ≤ column b) =
      rows.mergeSort fun a b => (time a).moment ≤ (time b).moment := by
  apply mergeSort_congr
  intro a aMember b bMember
  obtain ⟨aCommon, aText⟩ := written a aMember
  obtain ⟨bCommon, bText⟩ := written b bMember
  rw [aText, bText]
  exact decide_eq_decide.mpr (Column.instantText_le_iff_moment aCommon bCommon)

theorem textOrder_comparesBy (column : ρ → String) :
    ComparesBy (fun a b => decide (column a ≤ column b)) column :=
  fun _ _ => decide_eq_true_iff

/-- What is read from rows in the order of a column is chronological, if its times are read from
this column. -/
theorem chronological_of_read {rows : List ρ} {listed : List α}
    (times : ∀ r a, read r = .ok a → Column.instant (column r) = .ok (time a))
    (common : ∀ r ∈ rows, CommonTime (column r))
    (sorted : rows.Pairwise fun a b => column a ≤ column b)
    (readAll : rows.mapM read = .ok listed) : Chronological time listed := by
  have written : ∀ r a, r ∈ rows → read r = .ok a →
      (time a).InCommonYears ∧ column r = Column.instantText (time a) := by
    intro r a stored found
    obtain ⟨t, tCommon, text⟩ := common r stored
    have same := times r a found
    rw [text, Column.instant_instantText tCommon] at same
    rw [← Except.ok.inj same]
    exact ⟨tCommon, text⟩
  have pairs := Parsed.mapM_ok readAll
  clear readAll times common
  induction pairs with
  | nil => exact .nil
  | @cons r a rows listed first rest ih =>
      obtain ⟨least, others⟩ := List.pairwise_cons.mp sorted
      refine .cons ?_ (ih others fun s b stored => written s b (List.mem_cons_of_mem r stored))
      intro b member
      obtain ⟨s, stored, found⟩ := Parsed.exists_source rest member
      obtain ⟨aCommon, aText⟩ := written r a List.mem_cons_self first
      obtain ⟨bCommon, bText⟩ := written s b (List.mem_cons_of_mem r stored) found
      have order := least s stored
      rw [aText, bText] at order
      exact (Column.instantText_le_iff_moment aCommon bCommon).mp order

theorem chronological_of_ordered {rows : List ρ} {listed : List α}
    (times : ∀ r a, read r = .ok a → Column.instant (column r) = .ok (time a))
    (common : ∀ r ∈ rows, CommonTime (column r))
    (readAll : (rows.mergeSort fun a b => column a ≤ column b).mapM read = .ok listed) :
    Chronological time listed := by
  have sorted := (textOrder_comparesBy column).pairwise_mergeSort rows
  exact chronological_of_read times
    (fun r member => common r ((List.mergeSort_perm _ _).subset member))
    (sorted.imp fun order => of_decide_eq_true order) readAll

end

theorem toMetric_createdAt {r : MetricRow} {e : ExecutionRow} {m : Metric}
    (read : r.toMetric e = .ok m) : Column.instant r.createdAt = .ok m.createdAt := by
  unfold MetricRow.toMetric at read
  obtain ⟨id, -, rest⟩ := Parsed.bind_ok read
  obtain ⟨filters, -, rest⟩ := Parsed.bind_ok rest
  obtain ⟨groupBy, -, rest⟩ := Parsed.bind_ok rest
  obtain ⟨metricsGroupId, -, rest⟩ := Parsed.bind_ok rest
  obtain ⟨dataSourceId, -, rest⟩ := Parsed.bind_ok rest
  obtain ⟨condition, -, rest⟩ := Parsed.bind_ok rest
  obtain ⟨threshold, -, rest⟩ := Parsed.bind_ok rest
  obtain ⟨circleId, -, rest⟩ := Parsed.bind_ok rest
  obtain ⟨execution, -, rest⟩ := Parsed.bind_ok rest
  obtain ⟨createdAt, readCreated, rest⟩ := Parsed.bind_ok rest
  cases rest
  exact readCreated

theorem toExecution_createdAt {r : ExecutionRow} {e : MetricExecution}
    (read : r.toExecution = .ok e) : Column.instant r.createdAt = .ok e.createdAt := by
  unfold ExecutionRow.toExecution at read
  obtain ⟨id, -, rest⟩ := Parsed.bind_ok read
  obtain ⟨metricId, -, rest⟩ := Parsed.bind_ok rest
  obtain ⟨lastValue, -, rest⟩ := Parsed.bind_ok rest
  obtain ⟨status, -, rest⟩ := Parsed.bind_ok rest
  obtain ⟨createdAt, readCreated, rest⟩ := Parsed.bind_ok rest
  cases rest
  exact readCreated

theorem toSource_createdAt {r : SourceRow} {source : DataSource}
    (read : r.toSource = .ok source) : Column.instant r.createdAt = .ok source.createdAt := by
  unfold SourceRow.toSource at read
  obtain ⟨id, -, rest⟩ := Parsed.bind_ok read
  obtain ⟨workspaceId, -, rest⟩ := Parsed.bind_ok rest
  obtain ⟨health, -, rest⟩ := Parsed.bind_ok rest
  obtain ⟨createdAt, readCreated, rest⟩ := Parsed.bind_ok rest
  obtain ⟨deletedAt, -, rest⟩ := Parsed.bind_ok rest
  cases rest
  exact readCreated

theorem readGroup_createdAt {db : Database} {r : GroupRow} {g : MetricsGroup}
    (read : db.readGroup r = .ok g) : Column.instant r.createdAt = .ok g.createdAt := by
  obtain ⟨bare, readBare, metrics, -, rfl⟩ := readGroup_ok.mp read
  unfold GroupRow.toGroup at readBare
  obtain ⟨id, -, rest⟩ := Parsed.bind_ok readBare
  obtain ⟨workspaceId, -, rest⟩ := Parsed.bind_ok rest
  obtain ⟨circleId, -, rest⟩ := Parsed.bind_ok rest
  obtain ⟨createdAt, readCreated, rest⟩ := Parsed.bind_ok rest
  cases rest
  exact readCreated

theorem metricsOf_chronological {db : Database} (common : db.InCommonYears) {groupId : String}
    {metrics : List Metric} (read : db.metricsOf groupId = .ok metrics) :
    Chronological Metric.createdAt metrics := by
  let joined := (db.metrics.filter fun r => r.metricsGroupId = groupId).filterMap db.join
  have readRows : (joined.mergeSort fun a b => a.1.createdAt ≤ b.1.createdAt).mapM
      (fun row => row.1.toMetric row.2) = .ok metrics := read
  have written : ∀ row ∈ joined, CommonTime row.1.createdAt := by
    intro row member
    obtain ⟨r, chosen, found⟩ := List.mem_filterMap.mp member
    obtain ⟨rfl, -⟩ := join_eq_some found
    exact common.metrics row.1 (List.mem_of_mem_filter chosen)
  exact chronological_of_ordered (fun _ _ readRow => toMetric_createdAt readRow) written readRows

theorem readGroup_chronological {db : Database} (common : db.InCommonYears) {r : GroupRow}
    {g : MetricsGroup} (read : db.readGroup r = .ok g) :
    Chronological Metric.createdAt g.metrics := by
  obtain ⟨bare, -, metrics, readMetrics, rfl⟩ := readGroup_ok.mp read
  exact metricsOf_chronological common readMetrics

end Database

namespace RelationalStore

open Database

variable {s : RelationalStore}

theorem listDataSources_chronological (common : ∀ r ∈ s.database.sources, CommonTime r.createdAt)
    {workspaceId : EntityId} {health : Option Health} {listed : List DataSource}
    (answered : Store.listDataSources workspaceId health s = .ok listed) :
    Chronological DataSource.createdAt listed := by
  let rows := s.database.sources.filter (isListed workspaceId health)
  have byTextAndName : ComparesBy listedBefore fun r =>
      toLex (r.createdAt, r.name) := by
    intro a b
    rw [Prod.Lex.le_iff]
    unfold listedBefore
    simp only [Bool.or_eq_true, Bool.and_eq_true, decide_eq_true_eq, ofLex_toLex]
  have sorted : (rows.mergeSort listedBefore).Pairwise fun a b => a.createdAt ≤ b.createdAt := by
    refine (byTextAndName.pairwise_mergeSort rows).imp fun order => ?_
    rcases (Prod.Lex.le_iff.mp ((byTextAndName _ _).mp order)) with less | ⟨same, -⟩
    · exact le_of_lt less
    · exact le_of_eq same
  have written : ∀ r ∈ rows.mergeSort listedBefore, CommonTime r.createdAt := fun r member =>
    common r (List.mem_of_mem_filter ((List.mergeSort_perm _ _).subset member))
  obtain ⟨-, result⟩ := whenOpen_ok answered
  exact chronological_of_read (fun _ _ read => toSource_createdAt read) written sorted
    (parsed_ok.mp result)

theorem listMetricsGroups_chronological (common : s.database.InCommonYears)
    {listed : List MetricsGroup} (answered : Store.listMetricsGroups s = .ok listed) :
    Chronological MetricsGroup.createdAt listed ∧
      ∀ g ∈ listed, Chronological Metric.createdAt g.metrics := by
  obtain ⟨-, readAll⟩ := listMetricsGroups_ok.mp answered
  refine ⟨chronological_of_ordered (fun _ _ read => readGroup_createdAt read) common.groups readAll,
    fun g member => ?_⟩
  obtain ⟨r, -, read⟩ := Parsed.exists_source (Parsed.mapM_ok readAll) member
  exact readGroup_chronological common read

theorem listMetricExecutions_chronological (common : s.database.InCommonYears)
    {listed : List MetricExecution} (answered : Store.listMetricExecutions s = .ok listed) :
    Chronological MetricExecution.createdAt listed := by
  obtain ⟨-, result⟩ := whenOpen_ok answered
  exact chronological_of_ordered (fun _ _ read => toExecution_createdAt read) common.executions
    (parsed_ok.mp result)

/-! ### Around the end of a year -/

end RelationalStore

namespace Canary

/-- A quarter into the leap second at the end of 2016. -/
def leapSecond : Instant :=
  { civil :=
      { year := 2016, month := 12, day := 31, hour := 23, minute := 59, second := 60,
        nano := 250000000 }
    valid := by decide }

def lastSecond : Instant :=
  { civil := { leapSecond.civil with second := 59, nano := 999999999 }
    valid := by decide }

def newYear : Instant :=
  { civil :=
      { year := 2017, month := 1, day := 1, hour := 0, minute := 0, second := 0, nano := 0 }
    valid := by decide }

def yearEnd : Database :=
  { Database.empty with
    executions := [newYear, lastSecond, leapSecond].mapIdx fun i t =>
      .ofExecution (.ofNat i)
        { (metric 3).execution with id := .ofNat (10 + i), createdAt := t } }

end Canary

namespace RelationalStore

open Database

/-- In common years the bytes of the texts of times have the order of the line of time, ordering
rows by such a column orders them by time, and every list that a database orders by its times of
creation is chronological. -/
theorem text_order_chronological :
    (∀ t u : Instant, t.InCommonYears → u.InCommonYears →
      (Utf8.lessThan (Utf8.ofString (Column.instantText t))
          (Utf8.ofString (Column.instantText u)) = true ↔ t.moment < u.moment) ∧
        (Utf8.ofString (Column.instantText t) = Utf8.ofString (Column.instantText u) ↔
          t.moment = u.moment)) ∧
      (∀ (ρ : Type) (column : ρ → String) (time : ρ → Instant) (rows : List ρ),
        (∀ r ∈ rows, (time r).InCommonYears ∧ column r = Column.instantText (time r)) →
        rows.mergeSort (fun a b => column a ≤ column b) =
          rows.mergeSort fun a b => (time a).moment ≤ (time b).moment) ∧
      ∀ s : RelationalStore, s.database.InCommonYears →
        (∀ r ∈ s.database.sources, CommonTime r.createdAt) →
        (∀ workspaceId health listed, Store.listDataSources workspaceId health s = .ok listed →
          Chronological DataSource.createdAt listed) ∧
        (∀ listed, Store.listMetricsGroups s = .ok listed →
          Chronological MetricsGroup.createdAt listed ∧
            ∀ g ∈ listed, Chronological Metric.createdAt g.metrics) ∧
        (∀ id g, Store.findMetricsGroup id s = .ok (some g) →
          Chronological Metric.createdAt g.metrics) ∧
        ∀ listed, Store.listMetricExecutions s = .ok listed →
          Chronological MetricExecution.createdAt listed := by
  refine ⟨fun t u tCommon uCommon => ?_, fun ρ column time rows => mergeSort_instantText,
    fun s common sources => ⟨?_, ?_, ?_, ?_⟩⟩
  · exact ⟨Column.lessThan_instantText_iff tCommon uCommon,
      Column.instantText_bytes_inj tCommon uCommon⟩
  · exact fun _ _ _ answered => listDataSources_chronological sources answered
  · exact fun _ answered => listMetricsGroups_chronological common answered
  · intro id g found
    obtain ⟨-, r, -, read⟩ := findMetricsGroup_ok found
    exact readGroup_chronological common read
  · exact fun _ answered => listMetricExecutions_chronological common answered

theorem text_order_chronological_yearEnd :
    (Utf8.lessThan (Utf8.ofString (Column.instantText Canary.lastSecond))
        (Utf8.ofString (Column.instantText Canary.leapSecond)) = true ∧
      Canary.leapSecond.moment < Canary.newYear.moment) ∧
      ∃ listed, Store.listMetricExecutions (onDatabase Canary.yearEnd) = .ok listed ∧
        listed.length = 3 ∧ Chronological MetricExecution.createdAt listed := by
  have lastCommon : Canary.lastSecond.InCommonYears := by decide
  have leapCommon : Canary.leapSecond.InCommonYears := by decide
  have newCommon : Canary.newYear.InCommonYears := by decide
  have nothing {α : Type} {p : α → Prop} : ∀ a ∈ ([] : List α), p a :=
    fun _ member => absurd member List.not_mem_nil
  have common : Canary.yearEnd.InCommonYears :=
    { groups := nothing
      metrics := nothing
      executions := List.forall_mem_cons.mpr ⟨⟨_, newCommon, rfl⟩,
        List.forall_mem_cons.mpr ⟨⟨_, lastCommon, rfl⟩,
          List.forall_mem_cons.mpr ⟨⟨_, leapCommon, rfl⟩, nothing⟩⟩⟩ }
  have readable : ∀ r ∈ Canary.yearEnd.executions, ∃ e, r.toExecution = .ok e :=
    List.forall_mem_cons.mpr ⟨⟨_, ExecutionRow.toExecution_ofExecution newCommon _⟩,
      List.forall_mem_cons.mpr ⟨⟨_, ExecutionRow.toExecution_ofExecution lastCommon _⟩,
        List.forall_mem_cons.mpr ⟨⟨_, ExecutionRow.toExecution_ofExecution leapCommon _⟩, nothing⟩⟩⟩
  obtain ⟨listed, read⟩ := Parsed.mapM_exists
    fun r (member : r ∈ Canary.yearEnd.executions.mergeSort fun a b => a.createdAt ≤ b.createdAt) =>
      readable r ((List.mergeSort_perm _ _).subset member)
  have answered : Store.listMetricExecutions (onDatabase Canary.yearEnd) = .ok listed :=
    parsed_ok.mpr read
  have all : listed.length = 3 := by
    rw [← (Parsed.mapM_ok read).length_eq, List.length_mergeSort]
    rfl
  obtain ⟨texts, -, lists⟩ := text_order_chronological
  obtain ⟨-, -, -, executions⟩ := lists (onDatabase Canary.yearEnd) common nothing
  refine ⟨⟨(texts _ _ lastCommon leapCommon).1.mpr (by decide), ?_⟩,
    listed, answered, all, executions listed answered⟩
  exact (texts _ _ leapCommon newCommon).1.mp (by decide +kernel)

end RelationalStore

end RolloutWatch
