import RolloutWatch.Proofs.Web.Url
import RolloutWatch.Prometheus.InstantQuery

/-!
Where the requests go. The path of the query interface is put behind the address of a
connection as it is written, so that it comes to stand in the query or in the fragment of an
address that has one, and in the place of the host of an address that has none. The expression
is always read back from the last parameter.
-/

namespace RolloutWatch

namespace Url

def parameters (u : Url) : List (String × String) :=
  Form.parameters (u.query.getD [])

theorem parameters_withParameter (u : Url) (name value : String) :
    (u.withParameter name value).parameters = u.parameters ++ [(name, value)] := by
  unfold parameters withParameter
  cases u.query with
  | none => exact Form.parameters_item name value
  | some before =>
      cases before with
      | nil => exact Form.parameters_item name value
      | cons c rest =>
          simp only [Option.getD_some]
          rw [Form.parameters_append, Form.parameters_item]

end Url

/-- The request goes to the interface for instant queries and puts the expression there: the
path ends as it has to, and one parameter and no other is the query. -/
def Request.Queries (r : Request) (expression : String) : Prop :=
  "/api/v1/query".toList <:+ r.url.pathText ∧
    (r.url.parameters.filter fun p => p.1 = "query") = [("query", expression)]

instance (r : Request) (expression : String) : Decidable (r.Queries expression) :=
  inferInstanceAs (Decidable (_ ∧ _))

namespace Prometheus

namespace Connection

/-- The address has a query or a fragment of its own. -/
def isMarked (c : Connection) : Bool :=
  c.url.toList.any Url.isMark

/-- Something other than slashes stands behind the colon of the address. -/
def namesHost (c : Connection) : Bool :=
  ((c.url.toList.dropWhile (· ≠ ':')).drop 1).any fun ch => !Url.isSlash ch && !Url.isBreak ch

def bare (c : Connection) : List Char :=
  (c.url.toList.reverse.dropWhile (· = '/')).reverse

theorem endpoint_eq (c : Connection) : c.endpoint = c.bare ++ '/' :: "api/v1/query".toList :=
  rfl

theorem url_eq (c : Connection) :
    ∃ slashes, c.url.toList = c.bare ++ slashes ∧ ∀ ch ∈ slashes, ch = '/' := by
  refine ⟨(c.url.toList.reverse.takeWhile (· = '/')).reverse, ?_, ?_⟩
  · unfold bare
    rw [← List.reverse_append, List.takeWhile_append_dropWhile, List.reverse_reverse]
  · intro ch member
    have slash := List.mem_takeWhile_imp (List.mem_reverse.mp member)
    exact of_decide_eq_true slash

/-! ### Addresses without marks -/

private theorem afterColon {name : List Char} (absent : ':' ∉ name) (own : List Char) :
    ((name ++ ':' :: own).dropWhile (· ≠ ':')).drop 1 = own := by
  have skipped : name.dropWhile (· ≠ ':') = [] :=
    List.dropWhile_eq_nil_iff.mpr fun ch member =>
      decide_eq_true fun same : ch = ':' => absent (same ▸ member)
  rw [Url.dropWhile_append_stop (by decide), skipped]
  rfl

/-- The reader finds something before the path exactly if the address names a host. -/
theorem namesHost_iff {c : Connection} {scheme own : List Char}
    (read : Url.scheme? (Url.cleanedFront c.bare) = some (scheme, own)) :
    own.dropWhile Url.isSlash = [] ↔ c.namesHost = false := by
  obtain ⟨name, cleaned, named⟩ := Url.scheme_eq_some read
  have noColon : ':' ∉ name := fun member => absurd (named _ member) (by decide)
  -- The colon of the cleaned text is the first colon of the address itself.
  have present : ':' ∈ c.bare := by
    have later : ':' ∈ Url.cleanedFront c.bare := by
      rw [cleaned]
      exact List.mem_append_right _ List.mem_cons_self
    exact Url.mem_cleanedFront later
  obtain ⟨front, behind, split, first⟩ := List.eq_append_cons_of_mem present
  have cleanedSplit : Url.cleanedFront c.bare =
      Url.cleanedFront front ++ ':' :: behind.filter fun ch => !Url.isBreak ch := by
    unfold Url.cleanedFront
    rw [split, Url.dropWhile_append_stop (by decide), List.filter_append,
      List.filter_cons_of_pos (by decide)]
  have absent : ':' ∉ Url.cleanedFront front := fun member =>
    first (Url.mem_cleanedFront member)
  have ownText : own = behind.filter fun ch => !Url.isBreak ch := by
    rw [← afterColon noColon own, ← cleaned, cleanedSplit, afterColon absent]
  obtain ⟨slashes, whole, onlySlashes⟩ := c.url_eq
  have noHost : slashes.any (fun ch => !Url.isSlash ch && !Url.isBreak ch) = false := by
    rw [List.any_eq_false]
    intro ch member
    rw [onlySlashes ch member]
    decide
  unfold namesHost
  rw [whole, split, List.append_assoc, List.cons_append, afterColon first, List.any_append,
    noHost, Bool.or_false, ownText, List.dropWhile_eq_nil_iff, List.any_eq_false]
  simp only [List.mem_filter, Bool.not_eq_true', Bool.and_eq_true, not_and, Bool.not_eq_false,
    and_imp]
  constructor
  · intro slashed ch member noSlash
    cases broken : Url.isBreak ch with
    | true => rfl
    | false => exact absurd (slashed ch member broken) (by rw [noSlash]; decide)
  · intro broken ch member unbroken
    cases slash : Url.isSlash ch with
    | true => rfl
    | false => exact absurd (broken ch member slash) (by rw [unbroken]; decide)

private theorem bare_unmarked {c : Connection} (unmarked : c.isMarked = false) :
    ∀ ch ∈ c.bare, Url.isMark ch = false := by
  intro ch member
  obtain ⟨slashes, whole, -⟩ := c.url_eq
  unfold isMarked at unmarked
  rw [whole, List.any_append, Bool.or_eq_false_iff, List.any_eq_false] at unmarked
  exact Bool.eq_false_iff.mpr (unmarked.1 ch member)

private def interface : List (List Char) :=
  ["api".toList, "v1".toList, "query".toList]

private theorem resolve_interface (before : List (List Char)) :
    Url.resolve before interface = before.reverse ++ interface := by
  have api : Url.isDoubleDot "api".toList = false ∧ Url.isSingleDot "api".toList = false ∧
      Url.encodeWith Url.staysInPath "api".toList = "api".toList := by decide +kernel
  have v1 : Url.isDoubleDot "v1".toList = false ∧ Url.isSingleDot "v1".toList = false ∧
      Url.encodeWith Url.staysInPath "v1".toList = "v1".toList := by decide +kernel
  have query : Url.isDoubleDot "query".toList = false ∧ Url.isSingleDot "query".toList = false ∧
      Url.encodeWith Url.staysInPath "query".toList = "query".toList := by decide +kernel
  unfold interface
  simp only [Url.resolve, api, v1, query, Bool.false_eq_true, if_false, List.reverse_cons,
    List.append_assoc, List.cons_append, List.nil_append]

/-- Behind an address without marks the path of the interface is the end of the path, unless
its first segment is taken for the host. -/
theorem path_of_unmarked {c : Connection} {u : Url} (unmarked : c.isMarked = false)
    (read : Url.ofText? c.endpoint = some u) :
    u.query = none ∧ ("/api/v1/query".toList <:+ u.pathText ↔ c.namesHost = true) := by
  have unmarkedEnd : ∀ ch ∈ "api/v1/query".toList, Url.isMark ch = false := by
    have all : ("api/v1/query".toList.all fun ch => !Url.isMark ch) = true := by decide +kernel
    intro ch member
    exact (Bool.not_eq_true' _).mp (List.all_eq_true.mp all ch member)
  rw [endpoint_eq] at read
  obtain ⟨scheme, own, named, noQuery, path⟩ :=
    Url.ofText_unmarked (bare_unmarked unmarked) unmarkedEnd (by decide +kernel) read
  refine ⟨noQuery, ?_⟩
  cases host : c.namesHost with
  | false =>
      rw [if_pos ((namesHost_iff named).mpr host)] at path
      have taken : u.pathText = "/v1/query".toList := by
        unfold Url.pathText
        rw [path]
        decide +kernel
      rw [taken]
      decide +kernel
  | true =>
      have before : own.dropWhile Url.isSlash ≠ [] := fun none =>
        Bool.false_ne_true ((namesHost_iff named).mp none ▸ host)
      rw [if_neg before] at path
      have splits : Url.splitSlashes "api/v1/query".toList = interface := by decide +kernel
      obtain ⟨front, ends⟩ := Url.placePath_append splits (List.cons_ne_nil _ _)
        resolve_interface (own.dropWhile Url.isSlash)
      have suffix := Url.pathText_append (path.trans ends)
      have text : (interface.flatMap fun segment => '/' :: segment) = "/api/v1/query".toList := by
        decide +kernel
      rw [text] at suffix
      exact iff_of_true suffix rfl

/-! ### Addresses with marks -/

private theorem first_mark {c : Connection} (marked : c.isMarked = true) :
    ∃ front mark rest, c.url.toList = front ++ mark :: rest ∧
      (∀ ch ∈ front, Url.isMark ch = false) ∧ Url.isMark mark = true := by
  have whole := List.takeWhile_append_dropWhile (p := fun ch => !Url.isMark ch) (l := c.url.toList)
  have before : ∀ ch ∈ c.url.toList.takeWhile (fun ch => !Url.isMark ch),
      Url.isMark ch = false := by
    intro ch member
    have unmarked := List.mem_takeWhile_imp member
    exact (Bool.not_eq_true' _).mp unmarked
  cases behind : c.url.toList.dropWhile (fun ch => !Url.isMark ch) with
  | nil =>
      obtain ⟨ch, member, mark⟩ := List.any_eq_true.mp marked
      have noMark := List.dropWhile_eq_nil_iff.mp behind ch member
      rw [mark] at noMark
      cases noMark
  | cons mark rest =>
      have stops := List.head_dropWhile_not (fun ch => !Url.isMark ch)
        (by rw [behind]; exact List.cons_ne_nil mark rest)
      simp only [behind, List.head_cons, Bool.not_eq_false'] at stops
      exact ⟨_, mark, rest, (behind ▸ whole).symm, before, stops⟩

/-- The path of an address with a mark is its own, whatever is put behind it. -/
theorem path_of_marked {c : Connection} {u : Url} (marked : c.isMarked = true)
    (read : Url.ofText? c.endpoint = some u) :
    ∃ own, Url.ofText? c.url.toList = some own ∧ own.path = u.path := by
  obtain ⟨front, mark, rest, whole, unmarked, ends⟩ := first_mark marked
  have noSlash : mark ≠ '/' := fun slash => absurd (slash ▸ ends) (by decide)
  have bareSplit : c.bare = front ++ mark :: (rest.reverse.dropWhile (· = '/')).reverse := by
    unfold bare
    rw [whole, List.reverse_append, List.reverse_cons, List.append_assoc, List.singleton_append,
      Url.dropWhile_append_stop (decide_eq_false noSlash)]
    simp only [List.reverse_append, List.reverse_cons, List.reverse_reverse, List.append_assoc,
      List.singleton_append]
  rw [endpoint_eq, bareSplit, List.append_assoc, List.cons_append] at read
  rw [whole]
  exact Url.path_kept unmarked ends _ read

end Connection

theorem request_ok {c : Connection} {expression : String} {r : Request}
    (built : request c expression = .ok r) :
    ∃ u, Url.ofText? c.endpoint = some u ∧ r.url = u.withParameter "query" expression := by
  unfold request at built
  cases read : Url.ofText? c.endpoint with
  | none =>
      rw [read] at built
      simp only at built
      split at built
      · split at built <;> cases built
      · cases built
  | some u =>
      rw [read] at built
      simp only at built
      refine ⟨u, rfl, ?_⟩
      split at built
      · cases built
        rfl
      · split at built
        · cases built
          rfl
        · split at built
          · cases built
            rfl
          · cases built

theorem query_request {network : Network} {connection spec : List UInt8} {c : Connection}
    {question : QuerySpec} {r : Request} (accepted : Connection.ofBytes connection = .ok c)
    (asked : QuerySpec.ofBytes? spec = some question)
    (sent : (query network connection spec).request = some r) :
    ∃ text, expression question = .ok text ∧ request c text = .ok r := by
  unfold query at sent
  rw [accepted] at sent
  simp only [asked] at sent
  cases built : expression question with
  | error e =>
      rw [built] at sent
      cases sent
  | ok text =>
      rw [built] at sent
      simp only at sent
      cases made : request c text with
      | error e =>
          rw [made] at sent
          cases sent
      | ok other =>
          rw [made] at sent
          cases sent
          exact ⟨text, rfl, made⟩

/-- The expression is the value of the last parameter of every request. An address without a
query or fragment of its own is asked at the query interface exactly if it names a host. With
one, the path is that of the address, and the request is right only if that is already the path
of the interface and no other parameter is a query. -/
theorem requests_query_iff {network : Network} {connection spec : List UInt8} {c : Connection}
    {question : QuerySpec} {r : Request} (accepted : Connection.ofBytes connection = .ok c)
    (asked : QuerySpec.ofBytes? spec = some question)
    (sent : (query network connection spec).request = some r) :
    ∃ text others, expression question = .ok text ∧
      r.url.parameters = others ++ [("query", text)] ∧
      (c.isMarked = false → others = []) ∧
      (r.Queries text ↔
        if c.isMarked then
          (∃ own, Url.ofText? c.url.toList = some own ∧
              "/api/v1/query".toList <:+ own.pathText) ∧
            ∀ p ∈ others, p.1 ≠ "query"
        else c.namesHost = true) := by
  obtain ⟨text, built, made⟩ := query_request accepted asked sent
  obtain ⟨u, read, address⟩ := request_ok made
  have parameters := Url.parameters_withParameter u "query" text
  rw [← address] at parameters
  have path : r.url.pathText = u.pathText := by
    rw [address]
    rfl
  have single : (r.url.parameters.filter fun p => p.1 = "query") = [("query", text)] ↔
      ∀ p ∈ u.parameters, p.1 ≠ "query" := by
    rw [parameters, List.filter_append]
    have last : [("query", text)].filter (fun p => p.1 = "query") = [("query", text)] :=
      List.filter_cons_of_pos (decide_eq_true rfl)
    rw [last]
    refine List.append_left_eq_self.trans (List.filter_eq_nil_iff.trans ?_)
    simp only [decide_eq_true_eq, ne_eq]
  refine ⟨text, u.parameters, built, parameters, ?_, ?_⟩
  · intro unmarked
    unfold Url.parameters
    rw [(Connection.path_of_unmarked unmarked read).1]
    rfl
  · unfold Request.Queries
    rw [path, single]
    cases marked : c.isMarked with
    | true =>
        obtain ⟨own, ownRead, same⟩ := Connection.path_of_marked marked read
        have samePath : own.pathText = u.pathText := congrArg
          (fun segments => segments.flatMap fun segment => '/' :: segment) same
        rw [if_pos rfl]
        refine and_congr_left fun _ => ⟨fun ends => ⟨own, ownRead, samePath ▸ ends⟩, ?_⟩
        rintro ⟨other, otherRead, ends⟩
        rw [ownRead] at otherRead
        cases otherRead
        exact samePath ▸ ends
    | false =>
        obtain ⟨noQuery, ends⟩ := Connection.path_of_unmarked marked read
        have alone : ∀ p ∈ u.parameters, p.1 ≠ "query" := by
          unfold Url.parameters
          rw [noQuery]
          decide +kernel
        rw [if_neg Bool.false_ne_true, ends]
        exact and_iff_left alone

def upQuestion : QuerySpec :=
  { query := "up", metric := "", filters := [], groupBy := [] }

def connectionTo (url : String) : List UInt8 :=
  (Json.Value.object [("url", .text url)]).bytes

theorem base_path_queries :
    ∃ r text, (query Network.unreachable (connectionTo "http://prometheus/base/")
        upQuestion.toBytes).request = some r ∧
      expression upQuestion = .ok text ∧ r.Queries text := by
  have accepted : Connection.ofBytes (connectionTo "http://prometheus/base/") =
      .ok { url := "http://prometheus/base/", bearerToken := none } := by
    decide +kernel
  have asked : QuerySpec.ofBytes? upQuestion.toBytes = some upQuestion := by decide +kernel
  obtain ⟨r, sent⟩ := Option.isSome_iff_exists.mp
    (show (query Network.unreachable (connectionTo "http://prometheus/base/")
      upQuestion.toBytes).request.isSome = true by decide +kernel)
  obtain ⟨text, others, built, -, -, queries⟩ := requests_query_iff accepted asked sent
  refine ⟨r, text, sent, built, queries.mpr ?_⟩
  rw [if_neg (by decide)]
  decide

/-- A connection to the address of a tenant asks the front page, for a tenant with slashes in
its name. -/
theorem tenant_address_misses :
    (Connection.ofBytes (connectionTo "http://prometheus/?tenant=a")).isOk = true ∧
      QuerySpec.ofBytes? upQuestion.toBytes = some upQuestion ∧
      expression upQuestion = .ok "up" ∧
      ∃ r, (query Network.unreachable (connectionTo "http://prometheus/?tenant=a")
          upQuestion.toBytes).request = some r ∧
        r.url.pathText = ['/'] ∧
        r.url.parameters = [("tenant", "a/api/v1/query"), ("query", "up")] ∧
        ¬r.Queries "up" := by
  refine ⟨by decide +kernel, by decide +kernel, by decide +kernel, _, rfl, ?_, ?_, ?_⟩
  · decide +kernel
  · decide +kernel
  · decide +kernel

end Prometheus

end RolloutWatch
