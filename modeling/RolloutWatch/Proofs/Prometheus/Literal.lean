import RolloutWatch.Proofs.Prometheus.Expression

/-!
What the literal of a matcher stands for where it is read by the rules of the query language. Such
a literal is closed by the first quote without a backslash before it, which has to be its last
character, and it does not go over the end of a line. The value of a filter keeps its line feeds,
and so its literal is one exactly if the value has none.
-/

namespace RolloutWatch.Prometheus

/-- The character that an escape sequence stands for, by what comes behind the backslash. -/
def unescaped? : Char → Option Char
  | '\\' => some '\\'
  | '"' => some '"'
  | 'n' => some '\n'
  | _ => none

/-- The value of what comes behind the opening quote, up to the end of the literal. -/
def literalBody? : List Char → Option (List Char)
  | [] => none
  | '"' :: rest => if rest = [] then some [] else none
  | '\n' :: _ => none
  | '\\' :: [] => none
  | '\\' :: c :: rest => (unescaped? c).bind fun d => (literalBody? rest).map (d :: ·)
  | c :: rest => (literalBody? rest).map (c :: ·)

def literalValue? : List Char → Option (List Char)
  | '"' :: rest => literalBody? rest
  | _ => none

def enquoted (text : List Char) : List Char :=
  '"' :: text ++ ['"']

theorem literalBody?_cons {c : Char} (noQuote : c ≠ '"') (noBreak : c ≠ '\n')
    (noBackslash : c ≠ '\\') (rest : List Char) :
    literalBody? (c :: rest) = (literalBody? rest).map (c :: ·) := by
  rw [literalBody?]
  · exact noQuote
  · exact noBreak
  · exact fun backslash _ => noBackslash backslash
  · exact fun _ _ backslash _ => noBackslash backslash

theorem literalBody?_escapeChar {c : Char} (noBreak : c ≠ '\n') (rest : List Char) :
    literalBody? (escapeChar c ++ rest) = (literalBody? rest).map (c :: ·) := by
  unfold escapeChar
  split
  · rename_i backslash
    subst backslash
    rfl
  · rename_i noBackslash
    split
    · rename_i quote
      subst quote
      rfl
    · rename_i noQuote
      exact literalBody?_cons noQuote noBreak noBackslash rest

/-- A line feed is not escaped, and no literal goes over it. -/
theorem literalBody?_lineFeed (rest : List Char) :
    literalBody? (escapeChar '\n' ++ rest) = none :=
  rfl

theorem literalBody?_escaped (value : List Char) :
    literalBody? (escaped value ++ ['"']) = if '\n' ∈ value then none else some value := by
  rw [escaped_eq]
  induction value with
  | nil => rfl
  | cons c value ih =>
      rw [List.flatMap_cons, List.append_assoc]
      by_cases lineFeed : c = '\n'
      · subst lineFeed
        rw [literalBody?_lineFeed, if_pos List.mem_cons_self]
      · rw [literalBody?_escapeChar lineFeed, ih]
        by_cases later : '\n' ∈ value
        · rw [if_pos later, if_pos (List.mem_cons_of_mem c later)]
          rfl
        · have none : '\n' ∉ c :: value :=
            List.not_mem_cons_of_ne_of_not_mem (Ne.symm lineFeed) later
          rw [if_neg later, if_neg none]
          rfl

/-! ### Line feeds -/

def escapedLines (value : List Char) : List Char :=
  replaced '\n' ['\\', 'n'] (escaped value)

def escapeLineChar (c : Char) : List Char :=
  if c = '\n' then ['\\', 'n'] else escapeChar c

/-- The first two replacements put in no line feeds. -/
theorem escapedLines_eq (value : List Char) :
    escapedLines value = value.flatMap escapeLineChar := by
  unfold escapedLines replaced
  rw [escaped_eq, List.flatMap_assoc]
  refine congrArg (List.flatMap · value) (funext fun c => ?_)
  unfold escapeLineChar escapeChar
  by_cases backslash : c = '\\'
  · subst backslash
    rfl
  · by_cases quote : c = '"'
    · subst quote
      rfl
    · rw [if_neg backslash, if_neg quote, List.flatMap_singleton]

theorem literalBody?_escapeLineChar (c : Char) (rest : List Char) :
    literalBody? (escapeLineChar c ++ rest) = (literalBody? rest).map (c :: ·) := by
  unfold escapeLineChar
  split
  · rename_i lineFeed
    subst lineFeed
    rfl
  · rename_i noBreak
    exact literalBody?_escapeChar noBreak rest

theorem literalBody?_escapedLines (value : List Char) :
    literalBody? (escapedLines value ++ ['"']) = some value := by
  rw [escapedLines_eq]
  induction value with
  | nil => rfl
  | cons c value ih =>
      rw [List.flatMap_cons, List.append_assoc, literalBody?_escapeLineChar, ih]
      rfl

/-! ### The literal of a matcher -/

theorem matcher_enquotes (f : MetricFilter) :
    matcher f =
      f.field.toList ++ f.operator.name.toList ++ enquoted (escaped f.value.toList) := by
  rw [matcher, literal, escaped_eq]
  rfl

/-- Behind the operator a matcher has the value of its filter between quotes, with its backslashes
escaped first and its quotes next. That is a literal for exactly this value if the value has no
line feeds, and no literal at all if it has one. With its line feeds escaped as well it would be a
literal for every value. -/
theorem matcher_literal (f : MetricFilter) :
    (matcher f =
        f.field.toList ++ f.operator.name.toList ++ enquoted (escaped f.value.toList)) ∧
      (literalValue? (enquoted (escaped f.value.toList)) =
        if '\n' ∈ f.value.toList then none else some f.value.toList) ∧
      literalValue? (enquoted (escapedLines f.value.toList)) = some f.value.toList :=
  ⟨matcher_enquotes f, literalBody?_escaped f.value.toList,
    literalBody?_escapedLines f.value.toList⟩

def stackTraceFilter : MetricFilter where
  field := "msg"
  operator := .equal
  value := "first line\nsecond line"

/-- What the matcher for a value of two lines has behind its operator is no literal. -/
theorem stackTrace_not_literal :
    ¬ ∃ text, matcher stackTraceFilter =
        stackTraceFilter.field.toList ++ stackTraceFilter.operator.name.toList ++ text ∧
      literalValue? text = some stackTraceFilter.value.toList := by
  rintro ⟨text, same, read⟩
  rw [matcher_enquotes] at same
  rw [← List.append_cancel_left same] at read
  have lineFeed : '\n' ∈ stackTraceFilter.value.toList := by decide
  have none := literalBody?_escaped stackTraceFilter.value.toList
  rw [if_pos lineFeed] at none
  cases none.symm.trans read

end RolloutWatch.Prometheus
