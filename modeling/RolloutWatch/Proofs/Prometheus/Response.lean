import RolloutWatch.Prometheus.InstantQuery

/-!
What comes of a query. A result is the reading of a sample in a document that reports success,
and the status of the answer has no part in it. All else is an error, and its kind says which
of the parties is at fault.
-/

namespace RolloutWatch.Prometheus

/-! ### Results -/

/-- The sample in the data of an answer: the first one of a vector, or a scalar. -/
inductive Sampled (data : Json.Value) : Json.Value → Prop where
  | vector {first : Json.Value} {rest : List Json.Value} {value : Json.Value}
      (type : memberText? "resultType" data = some "vector")
      (result : data.member? "result" = some (.array (first :: rest)))
      (sampled : first.member? "value" = some value) : Sampled data value
  | scalar {value : Json.Value} (type : memberText? "resultType" data = some "scalar")
      (result : data.member? "result" = some value) : Sampled data value

/-- The document reports success, and its sample has this finite reading. -/
structure Reports (document : Json.Value) (x : Binary64) : Prop where
  success : memberText? "status" document = some "success"
  sampled : ∃ data value, document.member? "data" = some data ∧ Sampled data value ∧
    Reading.ofResult? value = some x

theorem sample_ok_iff {data value : Json.Value} :
    sample data = .ok value ↔ Sampled data value := by
  constructor
  · intro sampled
    unfold sample at sampled
    split at sampled
    · cases sampled
    · rename_i resultType type
      split at sampled
      · cases sampled
      · rename_i result read
        split at sampled
        · rename_i vector
          subst vector
          split at sampled
          · cases sampled
          · split at sampled
            · cases sampled
            · rename_i first
              cases sampled
              exact .vector type read first
          · cases sampled
        · split at sampled
          · rename_i scalar
            subst scalar
            cases sampled
            exact .scalar type read
          · cases sampled
  · intro sampled
    unfold sample
    cases sampled with
    | vector type result first => simp only [type, result, if_true, first]
    | scalar type result =>
        simp only [type, result, if_true, show ("scalar" : String) ≠ "vector" by decide, if_false]

theorem response_ok_iff {document result : Json.Value} :
    response document = .ok result ↔ ∃ x, Reports document x ∧ result = Reading.toResult x := by
  constructor
  · intro answered
    unfold response at answered
    split at answered
    · rename_i success
      split at answered
      · cases answered
      · rename_i data present
        split at answered
        · cases answered
        · rename_i value sampled
          split at answered
          · rename_i x reading
            cases answered
            exact ⟨x, ⟨success, data, value, present, sample_ok_iff.mp sampled, reading⟩, rfl⟩
          · cases answered
    · cases answered
  · rintro ⟨x, ⟨success, data, value, present, sampled, reading⟩, rfl⟩
    unfold response
    rw [if_pos success, present]
    simp only [sample_ok_iff.mpr sampled, reading]

def document? (body : List UInt8) : Option Json.Value :=
  Json.Value.ofBytes? (Utf8.ofString (bodyText body))

def ReportsSample (body : List UInt8) (x : Binary64) : Prop :=
  ∃ document, document? body = some document ∧ Reports document x

section Answers

variable {r : Request} {status : Nat} {body : List UInt8}

theorem readReply_of_document {document : Json.Value} (read : document? body = some document) :
    readReply r (.answered status body) = response document := by
  unfold document? at read
  unfold readReply
  simp only [read]

theorem readReply_without_document (none : document? body = none) :
    readReply r (.answered status body) =
      .error (if Status.isSuccess status then
          .refused .decode (Utf8.ofString (bodyText body))
        else .of .backend
          ("HTTP " ++ Status.text status ++ ": " ++ Blank.trimmed (bodyText body))) := by
  unfold document? at none
  unfold readReply
  simp only [none]
  split <;> rfl

/-- An answer is a result exactly if its document reports one, whatever its status is. -/
theorem readReply_ok_iff {result : Json.Value} :
    readReply r (.answered status body) = .ok result ↔
      ∃ x, ReportsSample body x ∧ result = Reading.toResult x := by
  unfold ReportsSample
  cases read : document? body with
  | none =>
      rw [readReply_without_document read]
      exact ⟨nofun, fun ⟨_, ⟨_, absent, _⟩, _⟩ => by cases absent⟩
  | some document =>
      rw [readReply_of_document read, response_ok_iff]
      refine exists_congr fun x => and_congr_left' ⟨fun reports => ⟨document, rfl, reports⟩, ?_⟩
      rintro ⟨other, same, reports⟩
      exact Option.some.inj same ▸ reports

end Answers

theorem answer_of_reply {network : Network} {connection spec : List UInt8} {reply : Reply}
    (replied : (query network connection spec).reply = some reply) :
    ∃ r, (query network connection spec).answer = readReply r reply := by
  unfold query at replied ⊢
  split at replied
  · cases replied
  · split at replied
    · cases replied
    · split at replied
      · cases replied
      · split at replied
        · cases replied
        · rename_i r _
          cases replied
          exact ⟨r, rfl⟩

/-- A status of failure is an error, unless the document in the answer reports a sample. An answer
without a document is refused with its status and its text. -/
theorem failed_status_error_iff {network : Network} {connection spec : List UInt8} {status : Nat}
    {body : List UInt8}
    (replied : (query network connection spec).reply = some (.answered status body))
    (failed : Status.isSuccess status = false) :
    ((∃ e, (query network connection spec).answer = .error e) ↔ ¬∃ x, ReportsSample body x) ∧
      (document? body = none →
        (query network connection spec).answer =
          .error (.of .backend
            ("HTTP " ++ Status.text status ++ ": " ++ Blank.trimmed (bodyText body)))) := by
  obtain ⟨r, answer⟩ := answer_of_reply replied
  rw [answer]
  constructor
  · constructor
    · rintro ⟨e, refused⟩ ⟨x, reports⟩
      rw [readReply_ok_iff.mpr ⟨x, reports, rfl⟩] at refused
      cases refused
    · intro silent
      cases read : readReply r (.answered status body) with
      | error e => exact ⟨e, rfl⟩
      | ok result =>
          obtain ⟨x, reports, -⟩ := readReply_ok_iff.mp read
          exact absurd ⟨x, reports⟩ silent
  · intro none
    rw [readReply_without_document none, failed]
    rfl

def askedUp (status : Nat) (body : Json.Value) : Asked :=
  query (fun _ => .answered status body.bytes)
    (Json.Value.object [("url", .text "http://prometheus:9090")]).bytes
    { query := "up", metric := "", filters := [], groupBy := [] : QuerySpec }.toBytes

def rejection : Json.Value :=
  .object [("status", .text "error"), ("errorType", .text "bad_data"),
    ("error", .text "invalid parameter")]

theorem rejection_is_error :
    (askedUp 400 rejection).reply = some (.answered 400 rejection.bytes) ∧
      Status.isSuccess 400 = false ∧ ∃ e, (askedUp 400 rejection).answer = .error e := by
  have replied : (askedUp 400 rejection).reply = some (.answered 400 rejection.bytes) := rfl
  refine ⟨replied, by decide, (failed_status_error_iff replied (by decide)).1.mpr ?_⟩
  rintro ⟨x, document, read, reports⟩
  have status : (document? rejection.bytes).bind (memberText? "status") = some "error" := by
    decide +kernel
  rw [read, Option.bind_some, reports.success] at status
  exact absurd status (by decide)

def scalarAnswer : Json.Value :=
  .object [("status", .text "success"),
    ("data", .object [("resultType", .text "scalar"),
      ("result", .array [.number (.integer 1700000000), .text "1.5"])])]

theorem failed_status_with_result :
    Status.isSuccess 500 = false ∧
      (askedUp 500 scalarAnswer).reply = some (.answered 500 scalarAnswer.bytes) ∧
      (askedUp 500 scalarAnswer).answer.toOption.map Json.Value.render = some "1.5" :=
  ⟨by decide, rfl, by decide +kernel⟩

/-! ### Faults -/

theorem sample_kind {data : Json.Value} {e : DriverError} (refused : sample data = .error e) :
    e.kind = .decode ∨ e.kind = .backend := by
  unfold sample decodeError at refused
  repeat' split at refused
  all_goals cases refused
  all_goals first
    | exact .inl rfl
    | exact .inr rfl

theorem response_kind {document : Json.Value} {e : DriverError}
    (refused : response document = .error e) : e.kind = .decode ∨ e.kind = .backend := by
  unfold response decodeError at refused
  split at refused
  · split at refused
    · cases refused
      exact .inl rfl
    · split at refused
      · rename_i inner
        cases refused
        exact sample_kind inner
      · split at refused
        · cases refused
        · cases refused
          exact .inl rfl
  · cases refused
    exact .inr rfl

theorem readReply_kind {r : Request} {reply : Reply} {e : DriverError}
    (refused : readReply r reply = .error e) :
    e.kind = .decode ∨ e.kind = .backend ∨ e.kind = .request := by
  cases reply with
  | refused =>
      cases refused
      exact .inr (.inr rfl)
  | silent =>
      cases refused
      exact .inr (.inr rfl)
  | answered status body =>
      cases read : document? body with
      | none =>
          rw [readReply_without_document read] at refused
          cases refused
          split
          · exact .inl rfl
          · exact .inr (.inl rfl)
      | some document =>
          rw [readReply_of_document read] at refused
          exact (response_kind refused).imp_right .inl

theorem request_kind {c : Connection} {text : String} {e : DriverError}
    (refused : request c text = .error e) : e.kind = .request := by
  unfold request requestFailed at refused
  repeat' split at refused
  all_goals cases refused
  all_goals rfl

theorem connection_kind {connection : List UInt8} {e : DriverError}
    (refused : Connection.ofBytes connection = .error e) : e.kind = .connection := by
  unfold Connection.ofBytes at refused
  repeat' split at refused
  all_goals cases refused
  all_goals rfl

/-- The question is at fault only if it cannot be read or has no expression. -/
theorem kind_ne_spec {network : Network} {connection spec : List UInt8} {question : QuerySpec}
    {text : String} (read : QuerySpec.ofBytes? spec = some question)
    (built : expression question = .ok text) {e : DriverError}
    (refused : (query network connection spec).answer = .error e) : e.kind ≠ .spec := by
  intro fault
  unfold query failed at refused
  split at refused
  · rename_i inner
    cases refused
    exact nomatch (connection_kind inner).symm.trans fault
  · simp only [read, built] at refused
    split at refused
    · rename_i inner
      cases refused
      exact nomatch (request_kind inner).symm.trans fault
    · rcases readReply_kind refused with kind | kind | kind <;> exact nomatch kind.symm.trans fault

end RolloutWatch.Prometheus
