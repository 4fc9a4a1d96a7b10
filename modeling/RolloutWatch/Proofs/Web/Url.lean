import RolloutWatch.Proofs.Web.Form
import RolloutWatch.Web.Url
import Mathlib.Data.List.TakeWhile

/-!
What is put behind an address, and where the reader finds it. Behind an address without marks
a path extends its path. The first question mark or number sign ends the path for good: all
that follows is query or fragment, and the path is the same whatever follows.
-/

namespace RolloutWatch.Url

/-! ### Marks -/

/-- A query or a fragment begins. -/
def isMark (c : Char) : Bool :=
  c = '?' || c = '#'

theorem drop_takeWhile (p : Char → Bool) (text : List Char) :
    text.drop (text.takeWhile p).length = text.dropWhile p := by
  have behind : (text.takeWhile p ++ text.dropWhile p).drop (text.takeWhile p).length =
      text.dropWhile p := List.drop_left
  rwa [List.takeWhile_append_dropWhile] at behind

theorem cut_front (mark : Char) (text : List Char) :
    (cut mark text).1 = text.takeWhile (· ≠ mark) := by
  unfold cut
  simp only
  split
  · rfl
  · rename_i whole
    have front := List.takeWhile_prefix (l := text) (· ≠ mark)
    exact (front.eq_of_length_le (Nat.le_of_not_lt whole)).symm

theorem cut_behind {mark : Char} {text : List Char} (absent : mark ∉ text) :
    (cut mark text).2 = none := by
  have whole : text.takeWhile (· ≠ mark) = text :=
    List.takeWhile_eq_self_iff.mpr fun c member =>
      decide_eq_true fun same : c = mark => absent (same ▸ member)
  unfold cut
  simp only
  rw [whole, if_neg (Nat.lt_irrefl _)]

/-- An address is read in one part up to its first mark. -/
theorem cut_cut (text : List Char) :
    (cut '?' (cut '#' text).1).1 = text.takeWhile fun c => !isMark c := by
  rw [cut_front, cut_front, List.takeWhile_takeWhile]
  congr 1
  funext c
  simp only [isMark, Bool.not_or, ne_eq, decide_not, Bool.decide_and, Bool.decide_eq_true,
    Bool.and_comm]

/-! ### Cleaning -/

def isBreak (c : Char) : Bool :=
  c = '\t' || c = '\n' || c = '\r'

def cleanedFront (front : List Char) : List Char :=
  (front.dropWhile isControlOrSpace).filter fun c => !isBreak c

theorem dropWhile_append_stop {p : Char → Bool} {stop : Char} (stops : p stop = false)
    (front behind : List Char) :
    (front ++ stop :: behind).dropWhile p = front.dropWhile p ++ stop :: behind := by
  rw [List.dropWhile_append]
  split
  · rename_i empty
    rw [List.isEmpty_iff.mp empty, List.dropWhile_cons_of_neg (by rw [stops]; decide)]
    rfl
  · rfl

theorem cleaned_append {stop : Char} (visible : isControlOrSpace stop = false)
    (front behind : List Char) :
    cleaned (front ++ stop :: behind) =
      cleanedFront front ++ stop ::
        (behind.reverse.dropWhile isControlOrSpace).reverse.filter fun c => !isBreak c := by
  have kept : (!isBreak stop) = true := by
    cases broken : isBreak stop with
    | false => rfl
    | true =>
        simp only [isBreak, Bool.or_eq_true, decide_eq_true_eq] at broken
        rcases broken with (rfl | rfl) | rfl <;> exact absurd visible (by decide)
  have breaks : (fun c : Char => decide (c ≠ '\t') && decide (c ≠ '\n') && decide (c ≠ '\r')) =
      fun c => !isBreak c := by
    funext c
    simp only [isBreak, Bool.not_or, ne_eq, decide_not]
  unfold cleaned cleanedFront
  simp only
  rw [dropWhile_append_stop visible, List.reverse_append, List.reverse_cons, List.append_assoc,
    List.singleton_append, dropWhile_append_stop visible, breaks]
  simp only [List.reverse_append, List.reverse_cons, List.reverse_reverse, List.append_assoc,
    List.singleton_append, List.filter_append]
  rw [List.filter_cons_of_pos (p := fun c => !isBreak c) kept]

/-! ### Schemes -/

/-- A scheme ends at its colon, and what is put behind the text does not change it. -/
theorem scheme_append {stop : Char} (stops : isSchemeChar stop = false) (noColon : stop ≠ ':')
    (base behind : List Char) :
    scheme? (base ++ stop :: behind) =
      (scheme? base).map fun read => (read.1, read.2 ++ stop :: behind) := by
  have name : (base ++ stop :: behind).takeWhile isSchemeChar = base.takeWhile isSchemeChar := by
    rw [List.takeWhile_append]
    split
    · rename_i whole
      rw [List.takeWhile_cons_of_neg (by rw [stops]; decide), List.append_nil]
      exact ((List.takeWhile_prefix _).eq_of_length whole).symm
    · rfl
  have short := (List.takeWhile_prefix (l := base) isSchemeChar).length_le
  unfold scheme?
  simp only
  rw [name, List.drop_append_of_le_length short]
  cases base.takeWhile isSchemeChar with
  | nil => rfl
  | cons first rest =>
      cases base.drop (first :: rest).length with
      | nil =>
          simp only [List.nil_append]
          split
          · rename_i equal
            exact absurd (List.cons.inj equal).1 noColon
          · rfl
      | cons c more =>
          simp only [List.cons_append]
          split
          · rename_i first' rest' more' same equal
            obtain ⟨rfl, rfl⟩ := List.cons.inj equal
            cases same
            simp only
            split <;> rfl
          · rename_i other
            split
            · rename_i same equal
              obtain ⟨rfl, rfl⟩ := List.cons.inj equal
              exact absurd rfl (other _ _ _ rfl)
            · rfl

/-- The colon of the scheme is the first one. -/
theorem scheme_eq_some {base scheme own : List Char} (read : scheme? base = some (scheme, own)) :
    ∃ name, base = name ++ ':' :: own ∧ ∀ c ∈ name, isSchemeChar c = true := by
  unfold scheme? at read
  simp only [drop_takeWhile] at read
  have whole := List.takeWhile_append_dropWhile (p := isSchemeChar) (l := base)
  split at read
  · rename_i name behind
    split at read
    · cases read
      rw [behind] at whole
      exact ⟨_, whole.symm, fun c member => List.mem_takeWhile_imp member⟩
    · cases read
  · cases read

/-! ### Paths -/

theorem splitSlashes_ne_nil (text : List Char) : splitSlashes text ≠ [] := by
  cases text with
  | nil => exact List.cons_ne_nil _ _
  | cons c rest =>
      unfold splitSlashes
      split
      · exact List.cons_ne_nil _ _
      · split <;> exact List.cons_ne_nil _ _

theorem splitSlashes_append (front behind : List Char) :
    splitSlashes (front ++ '/' :: behind) = splitSlashes front ++ splitSlashes behind := by
  induction front with
  | nil => rfl
  | cons c rest ih =>
      rw [List.cons_append, splitSlashes, splitSlashes, ih]
      by_cases slash : isSlash c = true
      · rw [if_pos slash, if_pos slash]
        rfl
      · rw [if_neg slash, if_neg slash]
        cases split : splitSlashes rest with
        | nil => exact absurd split (splitSlashes_ne_nil rest)
        | cons first more => rfl

/-- Segments that are no dots stay at the end, whatever dots stand before them. -/
theorem resolve_append {ending : List (List Char)} (nonempty : ending ≠ [])
    (plain : ∀ before, resolve before ending = before.reverse ++ ending)
    (before segments : List (List Char)) :
    ∃ front, resolve before (segments ++ ending) = front ++ ending := by
  induction segments generalizing before with
  | nil => exact ⟨before.reverse, plain before⟩
  | cons segment rest ih =>
      obtain ⟨next, more, continues⟩ := List.exists_cons_of_ne_nil
        (List.append_ne_nil_of_right_ne_nil rest nonempty)
      rw [List.cons_append, continues, resolve]
      · rw [← continues]
        split
        · exact ih _
        · split <;> exact ih _
      · exact List.cons_ne_nil _ _

def placePath (place : List Char) : List (List Char) :=
  match place.dropWhile fun c => !isSlash c with
  | [] => [[]]
  | _ :: more => resolve [] (splitSlashes more)

theorem placePath_append {ending : List (List Char)} {suffix : List Char}
    (splits : splitSlashes suffix = ending) (nonempty : ending ≠ [])
    (plain : ∀ before, resolve before ending = before.reverse ++ ending) (place : List Char) :
    ∃ front, placePath (place ++ '/' :: suffix) = front ++ ending := by
  unfold placePath
  rw [dropWhile_append_stop (by decide)]
  cases place.dropWhile fun c => !isSlash c with
  | nil =>
      simp only [List.nil_append]
      rw [splits]
      exact resolve_append nonempty plain [] []
  | cons slash more =>
      simp only [List.cons_append]
      rw [splitSlashes_append, splits]
      exact resolve_append nonempty plain [] _

theorem pathText_append {u : Url} {front ending : List (List Char)}
    (path : u.path = front ++ ending) :
    (ending.flatMap fun segment => '/' :: segment) <:+ u.pathText := by
  unfold pathText
  rw [path, List.flatMap_append]
  exact List.suffix_append _ _

/-! ### Addresses -/

/-- What is read of an address besides its scheme, its query and its fragment. -/
def place? (standard : Nat) (place : List Char) :
    Option (List Char × Option Nat × List (List Char)) := do
  let (hostText, portText) := splitPort (withoutUser (place.takeWhile fun c => !isSlash c))
  let host ← host? hostText
  let port ← port? standard portText
  pure (host, port, placePath place)

theorem ofText_eq (text : List Char) :
    ofText? text =
      (scheme? (cleaned text)).bind fun read =>
        (webPort? read.1).bind fun standard =>
          let rest := read.2.dropWhile isSlash
          (place? standard (rest.takeWhile fun c => !isMark c)).map fun found =>
            { scheme := read.1
              host := found.1
              port := found.2.1
              path := found.2.2
              query := ((cut '?' (cut '#' rest).1).2).map (encodeWith staysInQuery)
              fragment := ((cut '#' rest).2).map (encodeWith staysInFragment) } := by
  unfold ofText? place? placePath
  simp only [← cut_cut, drop_takeWhile, Option.bind_eq_bind, Option.pure_def, Option.map_bind,
    Function.comp_def]
  rfl

theorem place_path {standard : Nat} {place : List Char}
    {found : List Char × Option Nat × List (List Char)}
    (read : place? standard place = some found) : found.2.2 = placePath place := by
  unfold place? at read
  simp only [Option.bind_eq_bind, Option.pure_def, Option.bind_eq_some_iff,
    Option.some.injEq] at read
  obtain ⟨host, -, port, -, rfl⟩ := read
  rfl

theorem mem_cleanedFront {front : List Char} {c : Char} (member : c ∈ cleanedFront front) :
    c ∈ front :=
  (List.dropWhile_sublist _).subset (List.mem_filter.mp member).1

theorem scheme_mem {base scheme own : List Char} (read : scheme? base = some (scheme, own))
    {c : Char} (member : c ∈ own) : c ∈ base := by
  obtain ⟨name, rfl, -⟩ := scheme_eq_some read
  exact List.mem_append_right _ (List.mem_cons_of_mem _ member)

/-- The path of an address with a mark is read of what stands before the mark. -/
theorem path_marked {front : List Char} (unmarked : ∀ c ∈ front, isMark c = false) {mark : Char}
    (ends : isMark mark = true) (behind : List Char) :
    (ofText? (front ++ mark :: behind)).map Url.path =
      (scheme? (cleanedFront front)).bind fun read =>
        (webPort? read.1).bind fun standard =>
          (place? standard (read.2.dropWhile isSlash)).map fun found => found.2.2 := by
  have query_or_fragment : mark = '?' ∨ mark = '#' := by
    simpa only [isMark, Bool.or_eq_true, decide_eq_true_eq] using ends
  have visible : isControlOrSpace mark = false := by
    rcases query_or_fragment with rfl | rfl <;> decide
  have noScheme : isSchemeChar mark = false ∧ mark ≠ ':' ∧ isSlash mark = false := by
    rcases query_or_fragment with rfl | rfl <;> decide
  obtain ⟨stops, noColon, noSlash⟩ := noScheme
  rw [ofText_eq, cleaned_append visible, scheme_append stops noColon]
  cases read : scheme? (cleanedFront front) with
  | none => rfl
  | some found =>
      obtain ⟨scheme, own⟩ := found
      have plain : ∀ c ∈ own.dropWhile isSlash, (!isMark c) = true := by
        intro c member
        have inFront := mem_cleanedFront (scheme_mem read ((List.dropWhile_sublist _).subset member))
        rw [unmarked c inFront]
        rfl
      simp only [Option.map_some, Option.bind_some, dropWhile_append_stop noSlash]
      rw [List.takeWhile_append_of_pos plain,
        List.takeWhile_cons_of_neg (by rw [ends]; decide), List.append_nil]
      cases webPort? scheme with
      | none => rfl
      | some standard =>
          simp only [Option.bind_some, Option.map_map]
          rfl

theorem path_kept {front : List Char} (unmarked : ∀ c ∈ front, isMark c = false) {mark : Char}
    (ends : isMark mark = true) (behind : List Char) {other : List Char} {u : Url}
    (read : ofText? (front ++ mark :: behind) = some u) :
    ∃ own, ofText? (front ++ mark :: other) = some own ∧ own.path = u.path := by
  have paths := path_marked unmarked ends behind
  rw [← path_marked unmarked ends other, read] at paths
  exact Option.map_eq_some_iff.mp paths.symm

/-- A path that is put behind an address without marks extends its path, if the address has a
host before it; otherwise the first segment is taken for the host. -/
theorem ofText_unmarked {front suffix : List Char} (unmarked : ∀ c ∈ front, isMark c = false)
    (unmarkedSuffix : ∀ c ∈ suffix, isMark c = false)
    (cleanSuffix : (suffix.reverse.dropWhile isControlOrSpace).reverse.filter
      (fun c => !isBreak c) = suffix)
    {u : Url} (read : ofText? (front ++ '/' :: suffix) = some u) :
    ∃ scheme own, scheme? (cleanedFront front) = some (scheme, own) ∧ u.query = none ∧
      u.path =
        placePath
          (if own.dropWhile isSlash = [] then suffix.dropWhile isSlash
            else own.dropWhile isSlash ++ '/' :: suffix) := by
  rw [ofText_eq, cleaned_append (by decide), cleanSuffix,
    scheme_append (by decide) (by decide)] at read
  cases named : scheme? (cleanedFront front) with
  | none =>
      rw [named] at read
      cases read
  | some found =>
      obtain ⟨scheme, own⟩ := found
      refine ⟨scheme, own, rfl, ?_⟩
      have rest : (own ++ '/' :: suffix).dropWhile isSlash =
          if own.dropWhile isSlash = [] then suffix.dropWhile isSlash
          else own.dropWhile isSlash ++ '/' :: suffix := by
        rw [List.dropWhile_append]
        simp only [List.isEmpty_iff]
        rfl
      have plain : ∀ c ∈ own ++ '/' :: suffix, isMark c = false := by
        intro c member
        rcases List.mem_append.mp member with inOwn | inSuffix
        · exact unmarked c (mem_cleanedFront (scheme_mem named inOwn))
        · rcases List.mem_cons.mp inSuffix with rfl | inRest
          · decide
          · exact unmarkedSuffix c inRest
      rw [← rest]
      rw [named] at read
      simp only [Option.map_some, Option.bind_some] at read
      obtain ⟨standard, -, read⟩ := Option.bind_eq_some_iff.mp read
      obtain ⟨place, found, rfl⟩ := Option.map_eq_some_iff.mp read
      generalize own ++ '/' :: suffix = whole at plain found
      have plainRest : ∀ c ∈ whole.dropWhile isSlash, isMark c = false :=
        fun c member => plain c ((List.dropWhile_sublist _).subset member)
      have whole_read : (whole.dropWhile isSlash).takeWhile (fun c => !isMark c) =
          whole.dropWhile isSlash :=
        List.takeWhile_eq_self_iff.mpr fun c member => by rw [plainRest c member]; rfl
      have noQuery : '?' ∉ (cut '#' (whole.dropWhile isSlash)).1 := by
        intro member
        rw [cut_front] at member
        exact absurd (plainRest _ ((List.takeWhile_prefix _).subset member)) (by decide)
      rw [whole_read] at found
      refine ⟨?_, place_path found⟩
      simp only
      rw [cut_behind noQuery]
      rfl

end RolloutWatch.Url
