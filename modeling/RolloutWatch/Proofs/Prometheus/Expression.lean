import RolloutWatch.Prometheus.Expression

/-!
What an expression says about the question that it was built for. A name ends where the first
character comes that is not part of one, and a literal ends at the first quote that is not
escaped, whatever its value is. So each part of an expression is determined by the text from
where it begins, and what follows it as well.
-/

namespace RolloutWatch.Prometheus

/-! ### Names -/

def isLabelStart (c : Char) : Bool :=
  c.isAlpha || c = '_'

def isLabelPart (c : Char) : Bool :=
  c.isAlphanum || c = '_'

def isMetricStart (c : Char) : Bool :=
  isLabelStart c || c = ':'

def isMetricPart (c : Char) : Bool :=
  isLabelPart c || c = ':'

def isName (start part : Char → Bool) : List Char → Bool
  | [] => false
  | c :: rest => start c && rest.all part

def isLabelName (name : List Char) : Bool :=
  isName isLabelStart isLabelPart name

def isMetricName (name : List Char) : Bool :=
  isName isMetricStart isMetricPart name

theorem all_of_isName {start part : Char → Bool} (starts : ∀ c, start c = true → part c = true)
    {name : List Char} (named : isName start part name = true) : name.all part = true := by
  cases name with
  | nil => rfl
  | cons c rest =>
      rw [isName, Bool.and_eq_true] at named
      rw [List.all_cons, starts c named.1, named.2]
      rfl

theorem isLabelPart_of_isLabelStart (c : Char) (start : isLabelStart c = true) :
    isLabelPart c = true := by
  unfold isLabelStart at start
  unfold isLabelPart Char.isAlphanum
  rw [Bool.or_eq_true] at start
  rcases start with alpha | underscore
  · rw [alpha, Bool.true_or, Bool.true_or]
  · rw [underscore, Bool.or_true]

theorem isMetricPart_of_isMetricStart (c : Char) (start : isMetricStart c = true) :
    isMetricPart c = true := by
  unfold isMetricStart at start
  unfold isMetricPart
  rw [Bool.or_eq_true] at start ⊢
  exact start.imp_left (isLabelPart_of_isLabelStart c)

theorem all_of_isLabelName {name : List Char} (named : isLabelName name = true) :
    name.all isLabelPart = true :=
  all_of_isName isLabelPart_of_isLabelStart named

theorem all_of_isMetricName {name : List Char} (named : isMetricName name = true) :
    name.all isMetricPart = true :=
  all_of_isName isMetricPart_of_isMetricStart named

theorem ne_nil_of_isMetricName {name : List Char} (named : isMetricName name = true) :
    name ≠ [] := by
  rintro rfl
  cases named

theorem word_of_append {part : Char → Bool} {word rest : List Char}
    (all : word.all part = true) (ends : rest.takeWhile part = []) :
    (word ++ rest).takeWhile part = word := by
  rw [List.takeWhile_append_of_pos (List.all_eq_true.mp all), ends, List.append_nil]

/-- A word is all that comes before the first character that is not part of one. -/
theorem word_append_inj {part : Char → Bool} {v w r s : List Char}
    (allV : v.all part = true) (allW : w.all part = true)
    (endsR : r.takeWhile part = []) (endsS : s.takeWhile part = [])
    (same : v ++ r = w ++ s) : v = w ∧ r = s := by
  have words : v = w := by
    rw [← word_of_append allV endsR, same, word_of_append allW endsS]
  exact ⟨words, List.append_cancel_left (words ▸ same)⟩

/-! ### Literals -/

/-- The value of a literal at the beginning of a text, and the text behind the quote that closes
it: a backslash takes the character after it as it is. -/
def unquoted? : List Char → Option (List Char × List Char)
  | [] => none
  | '"' :: rest => some ([], rest)
  | '\\' :: [] => none
  | '\\' :: c :: rest => (unquoted? rest).map fun (value, rest) => (c :: value, rest)
  | c :: rest => (unquoted? rest).map fun (value, rest) => (c :: value, rest)

theorem unquoted?_cons {c : Char} (noQuote : c ≠ '"') (noBackslash : c ≠ '\\')
    (text : List Char) :
    unquoted? (c :: text) = (unquoted? text).map fun (value, rest) => (c :: value, rest) := by
  rw [unquoted?]
  · exact noQuote
  · exact fun backslash _ => noBackslash backslash
  · exact fun _ _ backslash _ => noBackslash backslash

theorem unquoted?_escapeChar (c : Char) (text : List Char) :
    unquoted? (escapeChar c ++ text) =
      (unquoted? text).map fun (value, rest) => (c :: value, rest) := by
  unfold escapeChar
  split
  · rename_i backslash
    subst backslash
    rfl
  · rename_i noBackslash
    split
    · rename_i quote
      subst quote
      rfl
    · rename_i noQuote
      exact unquoted?_cons noQuote noBackslash text

def replaced (c : Char) (new text : List Char) : List Char :=
  text.flatMap fun d => if d = c then new else [d]

/-- Escapes the backslashes first and the quotes next. -/
def escaped (value : List Char) : List Char :=
  replaced '"' ['\\', '"'] (replaced '\\' ['\\', '\\'] value)

/-- The first replacement puts in no quotes, and so the two come to the same as to escape each
character by itself. -/
theorem escaped_eq (value : List Char) : escaped value = value.flatMap escapeChar := by
  unfold escaped replaced
  rw [List.flatMap_assoc]
  refine congrArg (List.flatMap · value) (funext fun c => ?_)
  unfold escapeChar
  by_cases backslash : c = '\\'
  · subst backslash
    rfl
  · rw [if_neg backslash, if_neg backslash, List.flatMap_singleton]

theorem literal_append (value : String) (rest : List Char) :
    literal value ++ rest = '"' :: (escaped value.toList ++ '"' :: rest) := by
  rw [literal, List.append_assoc, escaped_eq]
  rfl

/-- No value closes its literal. -/
theorem unquoted?_escaped (value rest : List Char) :
    unquoted? (escaped value ++ '"' :: rest) = some (value, rest) := by
  rw [escaped_eq]
  induction value with
  | nil => rfl
  | cons c value ih =>
      rw [List.flatMap_cons, List.append_assoc, unquoted?_escapeChar, ih]
      rfl

theorem literal_append_inj {v w : String} {r s : List Char}
    (same : literal v ++ r = literal w ++ s) : v = w ∧ r = s := by
  rw [literal_append, literal_append] at same
  have read := congrArg unquoted? (List.cons.inj same).2
  rw [unquoted?_escaped, unquoted?_escaped] at read
  obtain ⟨values, rests⟩ := Prod.mk.inj (Option.some.inj read)
  exact ⟨String.toList_inj.mp values, rests⟩

/-! ### Matchers -/

theorem operator_append_inj {a b : FilterOperator} {v w : String} {r s : List Char}
    (same : a.name.toList ++ (literal v ++ r) = b.name.toList ++ (literal w ++ s)) :
    a = b ∧ literal v ++ r = literal w ++ s := by
  have unquoted (o : FilterOperator) : o.name.toList.all (· ≠ '"') = true := by
    cases o <;> decide
  rw [literal_append, literal_append] at same ⊢
  obtain ⟨names, rests⟩ := word_append_inj (unquoted a) (unquoted b) rfl rfl same
  refine ⟨?_, rests⟩
  revert names
  cases a <;> cases b <;> decide

theorem operator_ends (o : FilterOperator) (text : List Char) :
    (o.name.toList ++ text).takeWhile isLabelPart = [] := by
  cases o <;> rfl

theorem matcher_append_inj {f g : MetricFilter} {r s : List Char}
    (namedF : isLabelName f.field.toList = true) (namedG : isLabelName g.field.toList = true)
    (same : matcher f ++ r = matcher g ++ s) : f = g ∧ r = s := by
  unfold matcher at same
  simp only [List.append_assoc] at same
  obtain ⟨fields, rests⟩ := word_append_inj (all_of_isLabelName namedF)
    (all_of_isLabelName namedG) (operator_ends _ _) (operator_ends _ _) same
  obtain ⟨operators, rests⟩ := operator_append_inj rests
  obtain ⟨values, rests⟩ := literal_append_inj rests
  refine ⟨?_, rests⟩
  rw [MetricFilter.mk.injEq]
  exact ⟨String.toList_inj.mp fields, operators, values⟩

/-! ### Lists -/

section Lists

variable {α : Type} {enc : α → List Char} {valid : α → Prop} {close : Char}

/-- A list is its first item with a comma and the other items behind it, or with the end. -/
theorem commaSeparated_cons_append (a : α) (rest : List α) (text : List Char) :
    commaSeparated ((a :: rest).map enc) ++ text =
      enc a ++ (match rest with
        | [] => text
        | _ => ',' :: (commaSeparated (rest.map enc) ++ text)) := by
  cases rest with
  | nil => rfl
  | cons b rest => exact List.append_assoc _ _ _

/-- A list is determined by the text from where it begins if its items are, as long as a comma or
the character that closes the list comes after them. -/
theorem commaSeparated_append_inj (noComma : close ≠ ',')
    (items : ∀ a b x y r s, valid a → valid b → (x = ',' ∨ x = close) → (y = ',' ∨ y = close) →
      enc a ++ x :: r = enc b ++ y :: s → a = b ∧ x :: r = y :: s)
    {as bs : List α} {r s : List Char} (validAs : ∀ a ∈ as, valid a) (validBs : ∀ b ∈ bs, valid b)
    (someAs : as ≠ []) (someBs : bs ≠ [])
    (same : commaSeparated (as.map enc) ++ close :: r = commaSeparated (bs.map enc) ++ close :: s) :
    as = bs ∧ r = s := by
  induction as generalizing bs with
  | nil => exact absurd rfl someAs
  | cons a as ih =>
      obtain ⟨b, bs, rfl⟩ := List.exists_cons_of_ne_nil someBs
      obtain ⟨validA, othersAs⟩ := List.forall_mem_cons.mp validAs
      obtain ⟨validB, othersBs⟩ := List.forall_mem_cons.mp validBs
      rw [commaSeparated_cons_append, commaSeparated_cons_append] at same
      -- Where one list ends and the other goes on, a comma would be the closing character.
      cases as with
      | nil =>
          cases bs with
          | nil =>
              obtain ⟨rfl, rests⟩ := items _ _ _ _ _ _ validA validB (.inr rfl) (.inr rfl) same
              exact ⟨rfl, (List.cons.inj rests).2⟩
          | cons b' bs =>
              obtain ⟨-, rests⟩ := items _ _ _ _ _ _ validA validB (.inr rfl) (.inl rfl) same
              exact absurd (List.cons.inj rests).1 noComma
      | cons a' as =>
          cases bs with
          | nil =>
              obtain ⟨-, rests⟩ := items _ _ _ _ _ _ validA validB (.inl rfl) (.inr rfl) same
              exact absurd (List.cons.inj rests).1.symm noComma
          | cons b' bs =>
              obtain ⟨rfl, rests⟩ := items _ _ _ _ _ _ validA validB (.inl rfl) (.inl rfl) same
              obtain ⟨others, rests⟩ := ih othersAs othersBs (List.cons_ne_nil _ _)
                (List.cons_ne_nil _ _) (List.cons.inj rests).2
              exact ⟨congrArg (a :: ·) others, rests⟩

end Lists

theorem matchers_append_inj {fs gs : List MetricFilter} {r s : List Char}
    (namedFs : ∀ f ∈ fs, isLabelName f.field.toList = true)
    (namedGs : ∀ g ∈ gs, isLabelName g.field.toList = true) (someFs : fs ≠ []) (someGs : gs ≠ [])
    (same : commaSeparated (fs.map matcher) ++ Char.ofNat 0x7D :: r =
      commaSeparated (gs.map matcher) ++ Char.ofNat 0x7D :: s) : fs = gs ∧ r = s :=
  commaSeparated_append_inj (by decide)
    (fun _ _ _ _ _ _ namedF namedG _ _ => matcher_append_inj namedF namedG)
    namedFs namedGs someFs someGs same

theorem label_append_inj {v w : String} {x y : Char} {r s : List Char}
    (namedV : isLabelName v.toList = true) (namedW : isLabelName w.toList = true)
    (endsX : x = ',' ∨ x = ')') (endsY : y = ',' ∨ y = ')')
    (same : v.toList ++ x :: r = w.toList ++ y :: s) : v = w ∧ x :: r = y :: s := by
  have ends {c : Char} (delimits : c = ',' ∨ c = ')') (text : List Char) :
      (c :: text).takeWhile isLabelPart = [] := by
    rcases delimits with rfl | rfl <;> rfl
  obtain ⟨names, rests⟩ := word_append_inj (all_of_isLabelName namedV)
    (all_of_isLabelName namedW) (ends endsX r) (ends endsY s) same
  exact ⟨String.toList_inj.mp names, rests⟩

theorem labels_append_inj {vs ws : List String} {r s : List Char}
    (namedVs : ∀ v ∈ vs, isLabelName v.toList = true)
    (namedWs : ∀ w ∈ ws, isLabelName w.toList = true) (someVs : vs ≠ []) (someWs : ws ≠ [])
    (same : commaSeparated (vs.map String.toList) ++ ')' :: r =
      commaSeparated (ws.map String.toList) ++ ')' :: s) : vs = ws ∧ r = s :=
  commaSeparated_append_inj (by decide) (fun _ _ _ _ _ _ => label_append_inj)
    namedVs namedWs someVs someWs same

/-! ### Selectors -/

def braces (filters : List MetricFilter) : List Char :=
  if filters = [] then []
  else Char.ofNat 0x7B :: commaSeparated (filters.map matcher) ++ [Char.ofNat 0x7D]

theorem selector_eq (metric : List Char) (filters : List MetricFilter) :
    selector metric filters = metric ++ braces filters := by
  unfold selector braces
  split
  · exact (List.append_nil _).symm
  · exact List.append_assoc _ _ _

/-- What follows a selector in an expression: nothing, or the bracket that closes a sum. -/
def Ends (text : List Char) : Prop :=
  text = [] ∨ ∃ rest, text = ')' :: rest

theorem braces_append_ends {filters : List MetricFilter} {text : List Char} (ends : Ends text) :
    (braces filters ++ text).takeWhile isMetricPart = [] := by
  unfold braces
  split
  · rcases ends with rfl | ⟨rest, rfl⟩ <;> rfl
  · rfl

theorem braces_append_ne {filters : List MetricFilter} {text rest : List Char} (ends : Ends text) :
    braces filters ++ text ≠ '(' :: rest := by
  unfold braces
  split
  · rcases ends with rfl | ⟨other, rfl⟩ <;> exact nofun
  · intro same
    exact absurd (List.cons.inj same).1 (by decide)

theorem ends_ne {text rest : List Char} (ends : Ends text) : text ≠ Char.ofNat 0x7B :: rest := by
  rcases ends with rfl | ⟨other, rfl⟩
  · exact nofun
  · intro same
    exact absurd (List.cons.inj same).1 (by decide)

theorem braces_append_inj {fs gs : List MetricFilter} {r s : List Char}
    (namedFs : ∀ f ∈ fs, isLabelName f.field.toList = true)
    (namedGs : ∀ g ∈ gs, isLabelName g.field.toList = true) (endsR : Ends r) (endsS : Ends s)
    (same : braces fs ++ r = braces gs ++ s) : fs = gs ∧ r = s := by
  have braced (text rest : List Char) :
      Char.ofNat 0x7B :: text ++ [Char.ofNat 0x7D] ++ rest =
        Char.ofNat 0x7B :: (text ++ Char.ofNat 0x7D :: rest) := by
    rw [List.append_assoc]
    rfl
  unfold braces at same
  by_cases noFs : fs = []
  · by_cases noGs : gs = []
    · rw [if_pos noFs, if_pos noGs] at same
      exact ⟨noFs.trans noGs.symm, same⟩
    · rw [if_pos noFs, if_neg noGs, braced] at same
      exact absurd same (ends_ne endsR)
  · by_cases noGs : gs = []
    · rw [if_neg noFs, if_pos noGs, braced] at same
      exact absurd same.symm (ends_ne endsS)
    · rw [if_neg noFs, if_neg noGs, braced, braced] at same
      exact matchers_append_inj namedFs namedGs noFs noGs (List.cons.inj same).2

theorem selector_append_inj {m n : List Char} {fs gs : List MetricFilter} {r s : List Char}
    (namedM : isMetricName m = true) (namedN : isMetricName n = true)
    (namedFs : ∀ f ∈ fs, isLabelName f.field.toList = true)
    (namedGs : ∀ g ∈ gs, isLabelName g.field.toList = true) (endsR : Ends r) (endsS : Ends s)
    (same : selector m fs ++ r = selector n gs ++ s) : m = n ∧ fs = gs ∧ r = s := by
  rw [selector_eq, selector_eq, List.append_assoc, List.append_assoc] at same
  obtain ⟨metrics, rests⟩ := word_append_inj (all_of_isMetricName namedM)
    (all_of_isMetricName namedN) (braces_append_ends endsR) (braces_append_ends endsS) same
  exact ⟨metrics, braces_append_inj namedFs namedGs endsR endsS rests⟩

/-- A name in front of an opening bracket is no metric's. -/
theorem selector_ne_call {metric : List Char} {filters : List MetricFilter} {word rest : List Char}
    (named : isMetricName metric = true) (words : word.all isMetricPart = true) :
    selector metric filters ≠ word ++ '(' :: rest := by
  intro same
  rw [selector_eq, ← List.append_nil (braces filters)] at same
  obtain ⟨-, rests⟩ := word_append_inj (all_of_isMetricName named) words
    (braces_append_ends (.inl rfl)) rfl same
  exact braces_append_ne (.inl rfl) rests

/-! ### Expressions -/

structure Plain (spec : QuerySpec) : Prop where
  query : Blank.isBlank spec.query = true
  metric : isMetricName (Blank.trim spec.metric.toList) = true
  filters : ∀ f ∈ spec.filters, isLabelName f.field.toList = true
  groupBy : ∀ label ∈ spec.groupBy, isLabelName label.toList = true

def metricExpression (spec : QuerySpec) : List Char :=
  let selected := selector (Blank.trim spec.metric.toList) spec.filters
  if spec.groupBy = [] then selected
  else
    "sum(".toList ++ selected ++ ") by (".toList
      ++ commaSeparated (spec.groupBy.map String.toList) ++ [')']

theorem expression_of_blank {spec : QuerySpec} (blank : Blank.isBlank spec.query = true) :
    expression spec =
      if Blank.trim spec.metric.toList = [] then .error (.of .spec "metric or query is required")
      else .ok (String.ofList (metricExpression spec)) := by
  unfold expression metricExpression
  rw [blank]
  rfl

theorem Plain.expression_eq {spec : QuerySpec} (plain : Plain spec) :
    expression spec = .ok (String.ofList (metricExpression spec)) := by
  rw [expression_of_blank plain.query, if_neg (ne_nil_of_isMetricName plain.metric)]

theorem metricExpression_of_groupBy {spec : QuerySpec} (grouped : spec.groupBy ≠ []) :
    metricExpression spec =
      "sum".toList ++ '(' :: (selector (Blank.trim spec.metric.toList) spec.filters ++
        ')' :: (" by (".toList ++ (commaSeparated (spec.groupBy.map String.toList) ++ [')']))) := by
  unfold metricExpression
  rw [if_neg grouped]
  simp only [List.append_assoc]
  rfl

theorem Plain.metricExpression_inj {s t : QuerySpec} (plainS : Plain s) (plainT : Plain t)
    (same : metricExpression s = metricExpression t) :
    Blank.trim s.metric.toList = Blank.trim t.metric.toList ∧ s.filters = t.filters ∧
      s.groupBy = t.groupBy := by
  have sum : "sum".toList.all isMetricPart = true := by decide
  have bare {spec : QuerySpec} (single : spec.groupBy = []) :
      metricExpression spec = selector (Blank.trim spec.metric.toList) spec.filters :=
    if_pos single
  by_cases singleS : s.groupBy = []
  · by_cases singleT : t.groupBy = []
    · rw [bare singleS, bare singleT, ← List.append_nil (selector _ s.filters),
        ← List.append_nil (selector _ t.filters)] at same
      obtain ⟨metrics, filters, -⟩ := selector_append_inj plainS.metric plainT.metric
        plainS.filters plainT.filters (.inl rfl) (.inl rfl) same
      exact ⟨metrics, filters, singleS.trans singleT.symm⟩
    -- A metric may be called sum, but no bracket comes after its name.
    · rw [bare singleS, metricExpression_of_groupBy singleT] at same
      exact absurd same (selector_ne_call plainS.metric sum)
  · by_cases singleT : t.groupBy = []
    · rw [bare singleT, metricExpression_of_groupBy singleS] at same
      exact absurd same.symm (selector_ne_call plainT.metric sum)
    · rw [metricExpression_of_groupBy singleS, metricExpression_of_groupBy singleT] at same
      have selected := (List.cons.inj (List.append_cancel_left same)).2
      obtain ⟨metrics, filters, rests⟩ := selector_append_inj plainS.metric plainT.metric
        plainS.filters plainT.filters (.inr ⟨_, rfl⟩) (.inr ⟨_, rfl⟩) selected
      have labels := List.append_cancel_left (List.cons.inj rests).2
      exact ⟨metrics, filters,
        (labels_append_inj plainS.groupBy plainT.groupBy singleS singleT labels).1⟩

/-- Questions with one expression ask for the same, and no value closes its literal. -/
theorem expression_unambiguous {s t : QuerySpec} (plainS : Plain s) (plainT : Plain t) :
    ((∃ text, expression s = .ok text ∧ expression t = .ok text) ↔
      Blank.trim s.metric.toList = Blank.trim t.metric.toList ∧ s.filters = t.filters ∧
        s.groupBy = t.groupBy) ∧
      ∀ f ∈ s.filters, ∀ rest, ∃ written, literal f.value ++ rest = '"' :: written ∧
        unquoted? written = some (f.value.toList, rest) := by
  refine ⟨⟨?_, ?_⟩, fun f _ rest => ⟨_, literal_append f.value rest, unquoted?_escaped _ _⟩⟩
  · rintro ⟨text, textS, textT⟩
    rw [plainS.expression_eq] at textS
    rw [plainT.expression_eq] at textT
    have same := String.ofList_injective ((Except.ok.inj textS).trans (Except.ok.inj textT).symm)
    exact plainS.metricExpression_inj plainT same
  · rintro ⟨metrics, filters, groupBy⟩
    have same : metricExpression s = metricExpression t := by
      unfold metricExpression
      rw [metrics, filters, groupBy]
    exact ⟨_, plainS.expression_eq, same ▸ plainT.expression_eq⟩

/-- One filter, whose value spells the end of its literal and another matcher. -/
def spelledMatcher : QuerySpec :=
  { query := " "
    metric := "up\n"
    filters := [⟨"code", .equal, "5\",path=~\"\\"⟩]
    groupBy := ["job"] }

def twoMatchers : QuerySpec :=
  { query := ""
    metric := "up"
    filters := [⟨"code", .equal, "5"⟩, ⟨"path", .matching, "\\"⟩]
    groupBy := ["job"] }

theorem spelledMatcher_unambiguous :
    Plain spelledMatcher ∧ Plain twoMatchers ∧
      ¬∃ text, expression spelledMatcher = .ok text ∧ expression twoMatchers = .ok text := by
  have spelled : Plain spelledMatcher :=
    ⟨by decide +kernel, by decide +kernel, by decide +kernel, by decide +kernel⟩
  have two : Plain twoMatchers :=
    ⟨by decide +kernel, by decide +kernel, by decide +kernel, by decide +kernel⟩
  refine ⟨spelled, two, fun same => ?_⟩
  obtain ⟨-, filters, -⟩ := (expression_unambiguous spelled two).1.mp same
  exact absurd (congrArg List.length filters) (by decide)

end RolloutWatch.Prometheus
