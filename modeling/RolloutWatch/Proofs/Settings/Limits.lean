import RolloutWatch.Program.SettingsFile
import RolloutWatch.Program.Workspace
import RolloutWatch.Proofs.Text.Utf8
import RolloutWatch.Proofs.Toml.Integers

/-!
What settings that were accepted hand to the evaluation and to the scheduler. Both numbers are
guarded from below, twice over; from above the number of places is bounded only by the integers
of a settings document, and these reach far beyond what a semaphore takes.
-/

namespace RolloutWatch

namespace Semaphore

/-- The greatest number of permits that a semaphore takes: it keeps three bits of a word of 64
for itself, and refuses to be made with more. -/
def maxPermits : Nat :=
  (2 ^ 64 - 1) >>> 3

end Semaphore

open Toml Toml.Node

/-! ### Fields of a document -/

theorem Toml.Node.fields?_bounded {names : List String} {node : Node} {entries : Entries}
    (bounded : node.Bounded) (found : fields? names node = some entries) :
    BoundedEntries entries := by
  unfold fields? at found
  split at found
  · cases found
    cases bounded with
    | braces each => exact each
  · cases found
    cases bounded with
    | table each => exact each
  · cases found
    cases bounded with
    | array each => exact fun entry among => each _ (List.of_mem_zip among).2
  · cases found
    cases bounded with
    | tables each =>
        intro entry among
        obtain ⟨inner, isItem, same⟩ := List.mem_map.mp (List.of_mem_zip among).2
        rw [← same]
        exact .table (each inner isItem)
  · cases found
    exact boundedEntries_nil
  · cases found

/-- The number is what a place of a document states, or the default where nothing stands. -/
def StatedOr (default : Nat) (stated : Option Node) (n : Nat) : Prop :=
  (stated = none ∧ n = default) ∨ stated = some (.integer n)

theorem natural?_eq_some {node : Node} {n : Nat} (read : natural? node = some n) :
    node = .integer n := by
  unfold natural? at read
  split at read
  · split at read
    · rename_i positive
      cases read
      rw [Int.toNat_of_nonneg positive]
    · cases read
  · cases read

theorem field_natural {entries : Entries} {name : String} {default n : Nat}
    (read : field entries name natural? default = some n) :
    StatedOr default (find? name entries) n := by
  unfold field at read
  split at read
  · rename_i found
    rw [found, natural?_eq_some read]
    exact .inr rfl
  · rename_i absent
    cases read
    exact .inl ⟨absent, rfl⟩

namespace EvaluationSettings

def stated? (name : String) (entries : Entries) : Option Node :=
  (find? "evaluation" entries).bind fun node => (fields? fieldNames node).bind (find? name)

theorem ofNode?_some {node : Node} {s : EvaluationSettings} (read : ofNode? node = some s) :
    ∃ fields, fields? fieldNames node = some fields ∧
      StatedOr 4 (find? "max_concurrency" fields) s.maxConcurrency := by
  obtain ⟨fields, isSection, read⟩ := Option.bind_eq_some_iff.mp read
  obtain ⟨maxConcurrency, concurrency, read⟩ := Option.bind_eq_some_iff.mp read
  obtain ⟨metricTimeoutMs, -, read⟩ := Option.bind_eq_some_iff.mp read
  obtain ⟨groupDeadlineMs, -, read⟩ := Option.bind_eq_some_iff.mp read
  obtain ⟨intervalSecs, -, read⟩ := Option.bind_eq_some_iff.mp read
  obtain ⟨failurePolicy, -, read⟩ := Option.bind_eq_some_iff.mp read
  obtain ⟨transitionPolicy, -, read⟩ := Option.bind_eq_some_iff.mp read
  cases read
  exact ⟨fields, isSection, field_natural concurrency⟩

theorem stated?_bounded {name : String} {entries : Entries} {node : Node}
    (bounded : BoundedEntries entries) (stated : stated? name entries = some node) :
    node.Bounded := by
  obtain ⟨section', isSection, stated⟩ := Option.bind_eq_some_iff.mp stated
  obtain ⟨fields, areFields, found⟩ := Option.bind_eq_some_iff.mp stated
  exact (fields?_bounded (bounded.find? isSection) areFields).find? found

theorem check_ok_iff {s : EvaluationSettings} :
    s.check = .ok () ↔ 1 ≤ s.intervalSecs ∧ 1 ≤ s.maxConcurrency := by
  unfold check
  constructor
  · intro passed
    split at passed
    · cases passed
    · split at passed
      · cases passed
      · exact ⟨by omega, by omega⟩
  · intro ⟨interval, places⟩
    rw [if_neg (Nat.ne_of_gt interval), if_neg (Nat.ne_of_gt places)]

theorem permits_of_positive {s : EvaluationSettings} (positive : 1 ≤ s.maxConcurrency) :
    s.permits = s.maxConcurrency :=
  Nat.max_eq_left positive

end EvaluationSettings

namespace Settings

open EvaluationSettings

theorem ofEntries?_some {entries : Entries} {s : Settings} (read : ofEntries? entries = some s) :
    StatedOr 4 (stated? "max_concurrency" entries) s.evaluation.maxConcurrency := by
  obtain ⟨databasePath, -, read⟩ := Option.bind_eq_some_iff.mp read
  obtain ⟨evaluation, isEvaluation, read⟩ := Option.bind_eq_some_iff.mp read
  obtain ⟨requestTimeoutMs, -, read⟩ := Option.bind_eq_some_iff.mp read
  obtain ⟨encryptionKeyVariable, -, read⟩ := Option.bind_eq_some_iff.mp read
  cases read
  unfold field at isEvaluation
  unfold stated?
  split at isEvaluation
  · rename_i node found
    obtain ⟨fields, areFields, concurrency⟩ := ofNode?_some isEvaluation
    rw [found, Option.bind_some, areFields]
    exact concurrency
  · rename_i absent
    cases isEvaluation
    rw [absent]
    exact .inl ⟨rfl, rfl⟩

theorem ofDocument_ok {text : String} {s : Settings} (accepted : ofDocument text = .ok s) :
    ∃ entries, Toml.document text.toList = .ok entries ∧ ofEntries? entries = some s ∧
      s.evaluation.check = .ok () := by
  unfold ofDocument at accepted
  split at accepted
  · cases accepted
  · rename_i entries isRead
    split at accepted
    · cases accepted
    · rename_i settings areEntries
      split at accepted
      · cases accepted
      · rename_i passed
        cases accepted
        exact ⟨entries, isRead, areEntries, passed⟩

def placesDocument (n : Nat) : String :=
  "[evaluation]\nmax_concurrency = " ++ number n ++ "\n"

def withPlaces (n : Nat) : Settings :=
  { default with evaluation := { EvaluationSettings.default with maxConcurrency := n } }

section Places

variable {n : Nat}

theorem entry_places (positive : 1 ≤ n) (fits : n ≤ 9223372036854775807) :
    entry ("max_concurrency = ".toList ++ (Digits.ofNat n ++ ['\n'])) =
      some ((["max_concurrency"], .integer n), []) := by
  have isKey (rest : List Char) :
      key ("max_concurrency = ".toList ++ rest) =
        some (["max_concurrency"], '=' :: ' ' :: rest) :=
    rfl
  have isMark (rest : List Char) : Reader.literal '=' ('=' :: rest) = some ((), rest) := rfl
  have noSpace : skipSpace (' ' :: (Digits.ofNat n ++ ['\n'])) = Digits.ofNat n ++ ['\n'] := by
    obtain ⟨c, more, digits⟩ := List.exists_cons_of_ne_nil (Digits.ofNat_ne_nil n)
    have isDigit := Digits.ofNat_isDigit n c (by rw [digits]; exact .head _)
    have digit := (Digits.isDigit_iff c).mp isDigit
    have space : isSpace c ≠ true := by
      intro space
      rcases Bool.or_eq_true_iff.mp space with space | space
      all_goals
        rw [of_decide_eq_true space] at digit
        exact absurd digit (by decide)
    rw [digits]
    exact List.dropWhile_cons_of_neg space
  have isEnd : lineEnd ['\n'] = some [] := rfl
  unfold entry
  simp only [isKey, isMark, noSpace, Option.bind_eq_bind, Option.bind_some,
    value_ofNat positive fits, isEnd]
  rfl

theorem line_places (positive : 1 ≤ n) (fits : n ≤ 9223372036854775807) :
    line { root := [("evaluation", .table named [])], here := ["evaluation"] }
        ("max_concurrency = ".toList ++ (Digits.ofNat n ++ ['\n'])) =
      some
        ({ root := [("evaluation", .table named [("max_concurrency", .integer n)])]
           here := ["evaluation"] }, []) := by
  refine line_of_entry rfl (by decide) rfl (entry_places positive fits) ?_
  rfl

theorem document_places (positive : 1 ≤ n) (fits : n ≤ 9223372036854775807) :
    Toml.document (placesDocument n).toList =
      .ok [("evaluation", .table named [("max_concurrency", .integer n)])] := by
  have text : (placesDocument n).toList =
      '[' :: ("evaluation]\n".toList ++
        ("max_concurrency = ".toList ++ (Digits.ofNat n ++ ['\n']))) := by
    unfold placesDocument number
    simp
  have header (rest : List Char) :
      line { root := [], here := [] } ('[' :: ("evaluation]\n".toList ++ rest)) =
        some ({ root := [("evaluation", .table named [])], here := ["evaluation"] }, rest) :=
    rfl
  rw [text]
  refine document_of_lines (by decide) ?_
  exact (lines_cons (header _)).trans (lines_cons (line_places positive fits))

/-- Every positive number of 63 bits may be stated, and is then the number of places. -/
theorem ofDocument_places (positive : 1 ≤ n) (fits : n ≤ 9223372036854775807) :
    ofDocument (placesDocument n) = .ok (withPlaces n) := by
  have entries : ofEntries? [("evaluation", .table named [("max_concurrency", .integer n)])] =
      some (withPlaces n) :=
    rfl
  have passed : (withPlaces n).evaluation.check = .ok () :=
    check_ok_iff.mpr ⟨Nat.succ_le_succ (Nat.zero_le 59), positive⟩
  unfold ofDocument
  simp only [document_places positive fits, entries, passed]

end Places

def StatesPlaces (text : String) (n : Nat) : Prop :=
  ∃ entries, Toml.document text.toList = .ok entries ∧
    stated? "max_concurrency" entries = some (.integer n)

theorem StatesPlaces.unique {text : String} {n k : Nat} (states : StatesPlaces text n)
    (also : StatesPlaces text k) : n = k := by
  obtain ⟨entries, isRead, stated⟩ := states
  obtain ⟨entries', isRead', stated'⟩ := also
  cases isRead.symm.trans isRead'
  simpa using stated.symm.trans stated'

/-- The number of places of an accepted document is stated there or is the default. -/
theorem ofDocument_stated {text : String} {s : Settings} (accepted : ofDocument text = .ok s) :
    ∃ entries, Toml.document text.toList = .ok entries ∧ 1 ≤ s.evaluation.maxConcurrency ∧
      StatedOr 4 (stated? "max_concurrency" entries) s.evaluation.maxConcurrency := by
  obtain ⟨entries, isRead, areEntries, passed⟩ := ofDocument_ok accepted
  exact ⟨entries, isRead, (check_ok_iff.mp passed).2, ofEntries?_some areEntries⟩

theorem ofDocument_places_le {text : String} {s : Settings} (accepted : ofDocument text = .ok s) :
    s.evaluation.maxConcurrency ≤ 9223372036854775807 := by
  obtain ⟨entries, isRead, -, stated⟩ := ofDocument_stated accepted
  rcases stated with ⟨-, four⟩ | stated
  · omega
  · have range := (stated?_bounded (document_bounded isRead) stated).range
    omega

/-- Beyond the default, places come from the document only. -/
theorem ofDocument_places_le_iff {text : String} {s : Settings} {limit : Nat} (wide : 4 ≤ limit)
    (accepted : ofDocument text = .ok s) :
    s.evaluation.maxConcurrency ≤ limit ↔ ∀ n, StatesPlaces text n → n ≤ limit := by
  obtain ⟨entries, isRead, -, stated⟩ := ofDocument_stated accepted
  constructor
  · intro within n states
    rcases stated with ⟨absent, -⟩ | stated
    · obtain ⟨entries', isRead', stated'⟩ := states
      cases isRead.symm.trans isRead'
      cases absent.symm.trans stated'
    · exact StatesPlaces.unique ⟨entries, isRead, stated⟩ states ▸ within
  · intro within
    rcases stated with ⟨-, four⟩ | stated
    · omega
    · exact within _ ⟨entries, isRead, stated⟩

end Settings

/-! ### Files -/

namespace SettingsFile

open Settings

def ofContent : Except FileFault (List UInt8) → Except Error Settings
  | .ok bytes => ofBytes bytes
  | .error fault => if Host.isMissing fault then .ok .default else .error (.file fault)

def HasText (content : Except FileFault (List UInt8)) (text : String) : Prop :=
  ∃ bytes, content = .ok bytes ∧ Utf8.toString? bytes = some text

theorem load_eq {m : Type → Type} [Monad m] [LawfulMonad m] [Host m] (path : String) :
    (load path : m (Except Error Settings)) = ofContent <$> Host.readFile path := by
  unfold load
  rw [map_eq_pure_bind]
  congr 1
  funext content
  cases content with
  | ok bytes => rfl
  | error fault =>
      unfold ofContent
      dsimp only
      split <;> rfl

theorem ofContent_ok {content : Except FileFault (List UInt8)} {s : Settings}
    (accepted : ofContent content = .ok s) :
    (s = .default ∧ ∀ text, ¬ HasText content text) ∨
      ∃ text, HasText content text ∧ ofDocument text = .ok s := by
  unfold ofContent at accepted
  split at accepted
  · rename_i bytes
    unfold ofBytes at accepted
    split at accepted
    · cases accepted
    · rename_i text isText
      exact .inr ⟨text, ⟨bytes, rfl, isText⟩, accepted⟩
  · split at accepted
    · cases accepted
      refine .inl ⟨rfl, ?_⟩
      rintro text ⟨bytes, impossible, -⟩
      cases impossible
    · cases accepted

theorem HasText.unique {content : Except FileFault (List UInt8)} {text other : String}
    (has : HasText content text) (also : HasText content other) : text = other := by
  obtain ⟨bytes, isContent, isText⟩ := has
  obtain ⟨bytes', isContent', isText'⟩ := also
  cases isContent.symm.trans isContent'
  exact Option.some.inj (isText.symm.trans isText')

theorem hasText_ofString (text : String) : HasText (.ok (Utf8.ofString text)) text :=
  ⟨_, rfl, Utf8.toString_ofString text⟩

theorem ofContent_ofString (text : String) :
    ofContent (.ok (Utf8.ofString text)) = ofDocument text := by
  simp only [ofContent, ofBytes, Utf8.toString_ofString]

/-- Whatever the host, settings that are loaded come from what stands in the place of the file.
If they are accepted, there is at least one place, and passes are at least a second apart. The
places are within what a semaphore takes just if no number beyond it is stated in the file. -/
theorem loaded_settings_limits {m : Type → Type} [Monad m] [LawfulMonad m] [Host m]
    (path : String) {content : Except FileFault (List UInt8)} {s : Settings}
    (accepted : ofContent content = .ok s) :
    (load path : m (Except Error Settings)) = ofContent <$> Host.readFile path ∧
      1 ≤ s.evaluation.permits ∧ s.evaluation.permits ≤ 9223372036854775807 ∧
      (s.evaluation.permits ≤ Semaphore.maxPermits ↔
        ∀ text n, HasText content text → StatesPlaces text n → n ≤ Semaphore.maxPermits) ∧
      (Elapsed.ofSeconds 1).milliseconds ≤ s.evaluation.interval.milliseconds := by
  have interval : (Elapsed.ofSeconds 1).milliseconds ≤ s.evaluation.interval.milliseconds :=
    Nat.mul_le_mul_left 1000 (Nat.le_max_right _ _)
  refine ⟨load_eq path, ?_⟩
  rcases ofContent_ok accepted with ⟨rfl, missing⟩ | ⟨text, has, accepted⟩
  · refine ⟨by decide, by decide, ?_, interval⟩
    exact ⟨fun _ text n has => absurd has (missing text), fun _ => by decide⟩
  · obtain ⟨entries, -, positive, -⟩ := ofDocument_stated accepted
    rw [EvaluationSettings.permits_of_positive positive]
    refine ⟨positive, ofDocument_places_le accepted, ?_, interval⟩
    rw [ofDocument_places_le_iff (by decide) accepted]
    exact ⟨fun within other n also stated => within n (has.unique also ▸ stated),
      fun within n stated => within text n has stated⟩

theorem eight_places_limits :
    (load "compass.toml" : StateM Workspace (Except Error Settings)) =
        ofContent <$> Host.readFile "compass.toml" ∧
      ∃ s, ofContent (.ok (Utf8.ofString "[evaluation]\nmax_concurrency = 8\n")) = .ok s ∧
        1 ≤ s.evaluation.permits ∧ s.evaluation.permits ≤ Semaphore.maxPermits ∧
        1000 ≤ s.evaluation.interval.milliseconds := by
  have document : placesDocument 8 = "[evaluation]\nmax_concurrency = 8\n" := by decide +kernel
  have accepted : ofContent (.ok (Utf8.ofString "[evaluation]\nmax_concurrency = 8\n")) =
      .ok (withPlaces 8) := by
    rw [← document, ofContent_ofString]
    exact ofDocument_places (by decide) (by decide)
  have states : StatesPlaces "[evaluation]\nmax_concurrency = 8\n" 8 := by
    rw [← document]
    exact ⟨_, document_places (by decide) (by decide), rfl⟩
  obtain ⟨loads, least, -, within, interval⟩ :=
    loaded_settings_limits (m := StateM Workspace) "compass.toml" accepted
  refine ⟨loads, withPlaces 8, accepted, least, ?_, interval⟩
  refine within.mpr fun text n has stated => ?_
  rw [has.unique (hasText_ofString _)] at stated
  rw [stated.unique states]
  decide

/-- The greatest number of places that a document can state is accepted, and no semaphore can be
made with it. -/
theorem greatest_places_accepted :
    ∃ s, ofContent
        (.ok (Utf8.ofString "[evaluation]\nmax_concurrency = 9223372036854775807\n")) = .ok s ∧
      s.evaluation.permits = 9223372036854775807 ∧
      Semaphore.maxPermits < s.evaluation.permits := by
  have document : placesDocument 9223372036854775807 =
      "[evaluation]\nmax_concurrency = 9223372036854775807\n" := by
    decide +kernel
  refine ⟨withPlaces 9223372036854775807, ?_, rfl, by decide⟩
  rw [← document, ofContent_ofString]
  exact ofDocument_places (by decide) (by decide)

end SettingsFile

end RolloutWatch
