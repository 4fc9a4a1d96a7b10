import RolloutWatch.Engine.Evaluation
import RolloutWatch.Proofs.Prometheus.Response
import RolloutWatch.Store.Memory

/-!
Which documents give a result. The sample of a document ends in a number, which may be written as
a text and may stand at the end of series inside series. A result is this number again, so that
its reading is recorded; and a document without a result is at fault in one of two ways: the
backend has no sample to give, or the document does not say what it has to.
-/

namespace RolloutWatch

namespace Reading

/-- The sample ends in this number, behind all that comes before it in a series. -/
inductive EndsIn (x : Binary64) : Json.Value → Prop where
  | number {n : Json.Number} (reads : n.toBinary64 = x) : EndsIn x (.number n)
  | text {s : String} (writes : Binary64.ofText? (Blank.trim s.toList) = some x) :
      EndsIn x (.text s)
  | series {earlier : List Json.Value} {last : Json.Value} (ends : EndsIn x last) :
      EndsIn x (.array (earlier ++ [last]))

theorem rawLast?_append (earlier : List Json.Value) (last : Json.Value) :
    rawLast? (earlier ++ [last]) = raw? last := by
  induction earlier with
  | nil => rfl
  | cons first rest ih =>
      cases rest with
      | nil => rfl
      | cons second rest => exact ih

theorem endsIn_of_raw {x : Binary64} :
    ∀ {value : Json.Value}, raw? value = some x → EndsIn x value
  | .null, read => nomatch read
  | .bool _, read => nomatch read
  | .number _, read => .number (Option.some.inj read)
  | .text _, read => .text read
  | .object _, read => nomatch read
  | .array items, read => by
      rcases List.eq_nil_or_concat items with none | ⟨earlier, last, series⟩
      · subst none
        cases read
      · rw [List.concat_eq_append] at series
        rw [raw?, series, rawLast?_append] at read
        rw [series]
        exact .series (endsIn_of_raw read)
termination_by value => sizeOf value
decreasing_by
  have inside : sizeOf last < sizeOf (earlier ++ [last]) :=
    List.sizeOf_lt_of_mem List.mem_concat_self
  rw [Json.Value.array.sizeOf_spec, series, List.concat_eq_append]
  omega

theorem raw_eq_some_iff {value : Json.Value} {x : Binary64} :
    raw? value = some x ↔ EndsIn x value := by
  refine ⟨endsIn_of_raw, fun ends => ?_⟩
  induction ends with
  | number reads => exact congrArg some reads
  | text writes => exact writes
  | series _ ih => rw [raw?, rawLast?_append, ih]

theorem ofResult_eq_some_iff {value : Json.Value} {x : Binary64} :
    ofResult? value = some x ↔ EndsIn x value ∧ x.isFinite = true := by
  rw [ofResult?, Option.filter_eq_some_iff, raw_eq_some_iff]

theorem ofResult_number {x : Binary64} (finite : x.isFinite = true) :
    ofResult? (.number (.real x)) = some x :=
  ofResult_eq_some_iff.mpr ⟨.number rfl, finite⟩

end Reading

namespace Prometheus

/-! ### Documents with a result -/

/-- The document reports success with a sample that ends in a finite number. -/
structure Delivers (document : Json.Value) (x : Binary64) : Prop where
  success : memberText? "status" document = some "success"
  sampled : ∃ data value, document.member? "data" = some data ∧ Sampled data value ∧
    Reading.EndsIn x value
  finite : x.isFinite = true

theorem delivers_iff_reports {document : Json.Value} {x : Binary64} :
    Delivers document x ↔ Reports document x := by
  constructor
  · rintro ⟨success, ⟨data, value, present, sampled, ends⟩, finite⟩
    exact ⟨success, data, value, present, sampled,
      Reading.ofResult_eq_some_iff.mpr ⟨ends, finite⟩⟩
  · rintro ⟨success, data, value, present, sampled, reading⟩
    obtain ⟨ends, finite⟩ := Reading.ofResult_eq_some_iff.mp reading
    exact ⟨success, ⟨data, value, present, sampled, ends⟩, finite⟩

theorem response_of_delivers {document : Json.Value} {x : Binary64}
    (delivers : Delivers document x) : response document = .ok (.number (.real x)) := by
  refine response_ok_iff.mpr ⟨x, delivers_iff_reports.mp delivers, ?_⟩
  rw [Reading.toResult, if_pos delivers.finite]

theorem delivers_of_response {document result : Json.Value}
    (answered : response document = .ok result) :
    ∃ x, Delivers document x ∧ result = .number (.real x) := by
  obtain ⟨x, reports, written⟩ := response_ok_iff.mp answered
  have delivers := delivers_iff_reports.mpr reports
  refine ⟨x, delivers, ?_⟩
  rw [written, Reading.toResult, if_pos delivers.finite]

/-- To track this result is to record the number for the metric, whatever the metric is. -/
def RecordedAs (σ : Type) [Store σ] (result : Json.Value) (x : Binary64) : Prop :=
  ∀ (policy : TransitionPolicy) (report : GroupEvaluation) (index : Nat) (metric : Metric),
    (Evaluation.trackOutcome policy report { index, metric, answer := .ok result } :
        Action σ GroupEvaluation) =
      Tracker.record policy metric x >>= fun execution =>
        pure
          { report with
            results := Keyed.put metric.resultKey result report.results
            executions := report.executions ++ [execution] }

theorem recordedAs_of_reading (σ : Type) [Store σ] {result : Json.Value} {x : Binary64}
    (reading : Reading.ofResult? result = some x) : RecordedAs σ result x := by
  intro policy report index metric
  unfold Evaluation.trackOutcome
  simp only [reading]

/-! ### Documents without a result -/

/-- The backend has no sample to give: it does not report success, or its vector is empty. -/
inductive Sampleless (document : Json.Value) : Prop where
  | failed (status : memberText? "status" document ≠ some "success")
  | empty {data : Json.Value} (present : document.member? "data" = some data)
      (type : memberText? "resultType" data = some "vector")
      (result : data.member? "result" = some (.array []))

theorem sample_empty {data : Json.Value} (type : memberText? "resultType" data = some "vector")
    (result : data.member? "result" = some (.array [])) :
    sample data = .error (.of .backend "no samples") := by
  unfold sample
  simp only [type, result, if_true]

theorem response_sampleless {document : Json.Value} (sampleless : Sampleless document) :
    ∃ e, response document = .error e ∧ e.kind = .backend := by
  unfold response
  cases sampleless with
  | failed status =>
      rw [if_neg status]
      exact ⟨_, rfl, rfl⟩
  | empty present type result =>
      split
      · rw [present]
        simp only [sample_empty type result]
        exact ⟨_, rfl, rfl⟩
      · exact ⟨_, rfl, rfl⟩

theorem sample_backend {data : Json.Value} {e : DriverError} (refused : sample data = .error e)
    (backend : e.kind = .backend) :
    memberText? "resultType" data = some "vector" ∧
      data.member? "result" = some (.array []) := by
  unfold sample decodeError at refused
  split at refused
  · cases refused
    cases backend
  · rename_i resultType type
    split at refused
    · cases refused
      cases backend
    · rename_i result present
      split at refused
      · rename_i vector
        subst vector
        split at refused
        · exact ⟨type, present⟩
        · split at refused
          · cases refused
            cases backend
          · cases refused
        · cases refused
          cases backend
      · split at refused
        · cases refused
        · cases refused
          cases backend

theorem sampleless_of_backend {document : Json.Value} {e : DriverError}
    (refused : response document = .error e) (backend : e.kind = .backend) :
    Sampleless document := by
  unfold response decodeError at refused
  split at refused
  · split at refused
    · cases refused
      cases backend
    · rename_i data present
      split at refused
      · rename_i inner
        cases refused
        obtain ⟨type, result⟩ := sample_backend inner backend
        exact .empty present type result
      · split at refused
        · cases refused
        · cases refused
          cases backend
  · rename_i status
    exact .failed status

/-- A document gives a result exactly if it delivers a finite number, and the result is this
number, which is its own reading and is recorded. Any other document is refused: the backend is at
fault if it has no sample to give, and the document is malformed otherwise. -/
theorem response_outcome (σ : Type) [Store σ] (document : Json.Value) :
    (∀ result, response document = .ok result ↔
        ∃ x, Delivers document x ∧ result = .number (.real x)) ∧
      (∀ x, Delivers document x →
        Reading.ofResult? (.number (.real x)) = some x ∧ RecordedAs σ (.number (.real x)) x) ∧
      ((∃ e, response document = .error e ∧ e.kind = .backend) ↔ Sampleless document) ∧
      ((∃ e, response document = .error e ∧ e.kind = .decode) ↔
        ¬Sampleless document ∧ ¬∃ x, Delivers document x) := by
  refine ⟨fun result => ⟨delivers_of_response, ?_⟩, fun x delivers => ?_, ?_, ?_⟩
  · rintro ⟨x, delivers, rfl⟩
    exact response_of_delivers delivers
  · have reading := Reading.ofResult_number delivers.finite
    exact ⟨reading, recordedAs_of_reading σ reading⟩
  · refine ⟨?_, response_sampleless⟩
    rintro ⟨e, refused, backend⟩
    exact sampleless_of_backend refused backend
  · constructor
    · rintro ⟨e, refused, decode⟩
      constructor
      · intro sampleless
        obtain ⟨other, same, backend⟩ := response_sampleless sampleless
        cases refused.symm.trans same
        cases decode.symm.trans backend
      · rintro ⟨x, delivers⟩
        cases refused.symm.trans (response_of_delivers delivers)
    · rintro ⟨sampled, undelivered⟩
      cases answered : response document with
      | ok result =>
          obtain ⟨x, delivers, -⟩ := delivers_of_response answered
          exact absurd ⟨x, delivers⟩ undelivered
      | error e =>
          refine ⟨e, rfl, (response_kind answered).resolve_right fun backend => ?_⟩
          exact sampled (sampleless_of_backend answered backend)

def scalarReading : Binary64 where
  bits := 0x3FF8000000000000#64

theorem scalarAnswer_delivers : Delivers scalarAnswer scalarReading where
  success := rfl
  sampled := by
    have ends : Reading.EndsIn scalarReading
        (.array ([.number (.integer 1700000000)] ++ [.text "1.5"])) :=
      .series (.text (by decide +kernel))
    exact ⟨_, _, rfl, .scalar rfl rfl, ends⟩
  finite := by decide

theorem scalarAnswer_outcome :
    Delivers scalarAnswer scalarReading ∧
      response scalarAnswer = .ok (.number (.real scalarReading)) ∧
      RecordedAs MemoryStore (.number (.real scalarReading)) scalarReading := by
  obtain ⟨accepted, recorded, -⟩ := response_outcome MemoryStore scalarAnswer
  exact ⟨scalarAnswer_delivers, (accepted _).mpr ⟨_, scalarAnswer_delivers, rfl⟩,
    (recorded _ scalarAnswer_delivers).2⟩

end Prometheus

end RolloutWatch
