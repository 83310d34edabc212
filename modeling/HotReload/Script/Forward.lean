import HotReload.Script.Lexer

/-!
# Reading goes forward

Whatever is read at an index of a source ends there or further on, and a token begins where the one
before it ends or further on.  A string literal takes a character of the source at least.

* `Token.Spans`: what the span of a token is in a source.
* `Lexer.Forward`, `Lexer.Keeps`: readers that read on, and readers that read a token again.
-/

namespace HotReload.Script

/-- The span of a token in a source. -/
structure Token.Spans (s : Source) (t : Token) : Prop where
  ordered : t.start ≤ t.stop
  /-- A literal is not empty, and begins inside of the source. -/
  literal : ∀ value, t.cls = .string value → t.start < t.stop ∧ t.start < s.size

variable {s : Source} {i j k : Nat}

theorem Source.le_skipWhile (s : Source) (p : Char → Bool) (fuel i : Nat) :
    i ≤ s.skipWhile p fuel i := by
  induction fuel generalizing i with
  | zero => exact Nat.le_refl i
  | succ fuel ih =>
    rw [skipWhile]
    split
    · exact Nat.le_of_succ_le (ih (i + 1))
    · exact Nat.le_refl i

theorem Source.le_skip (s : Source) (p : Char → Bool) (i : Nat) : i ≤ s.skip p i :=
  s.le_skipWhile p _ i

theorem Source.lt_size_of_not_isEnd (h : ¬ s.isEnd i = true) : i < s.size := by
  simpa [Source.isEnd] using h

/-- Two readings come to a value where the first does, and then the second. -/
theorem exists_of_bind_eq_ok {ε α β : Type} {x : Except ε α} {f : α → Except ε β} {b : β}
    (h : x.bind f = .ok b) : ∃ a, x = .ok a ∧ f a = .ok b := by
  cases x with
  | error fault => cases h
  | ok a => exact ⟨a, rfl, h⟩

namespace Lexer

/-- A reader of the token that follows an index. -/
def Forward (lex : Source → Nat → Except Fault Token) : Prop :=
  ∀ {s i t}, lex s i = .ok t → i ≤ t.start ∧ t.Spans s

/-- A reader of a token anew, from where it begins. -/
def Keeps (lex : Source → Token → Except Fault Token) : Prop :=
  ∀ {s t t'}, t.Spans s → lex s t = .ok t' → t'.start = t.start ∧ t'.Spans s

/-! ### Blanks and comments -/

theorem le_blockCommentEnd {fuel : Nat} {newline ends : Bool}
    (h : blockCommentEnd s fuel i newline = some (j, ends)) : i ≤ j := by
  induction fuel generalizing i newline with
  | zero => cases h
  | succ fuel ih =>
    rw [blockCommentEnd] at h
    split at h
    · cases h
    · split at h
      · cases h
        omega
      · exact Nat.le_of_succ_le (ih h)

theorem le_gap {fuel : Nat} {g g' : Gap} (h : gap s fuel g = .ok g') : g.stop ≤ g'.stop := by
  induction fuel generalizing g with
  | zero =>
    cases h
    exact Nat.le_refl _
  | succ fuel ih =>
    have blank {g₁ : Gap} (h : gap s fuel g₁ = .ok g') (one : g.stop + 1 = g₁.stop) :
        g.stop ≤ g'.stop := Nat.le_trans (by omega) (ih h)
    have line {g₁ : Gap} {n : Nat} (h : gap s fuel g₁ = .ok g')
        (rest : s.skip (fun c => !isLineEnd c) (g.stop + n) = g₁.stop) : g.stop ≤ g'.stop :=
      calc g.stop
          ≤ g.stop + n := Nat.le_add_right _ n
        _ ≤ s.skip (fun c => !isLineEnd c) (g.stop + n) := s.le_skip _ _
        _ = g₁.stop := rest
        _ ≤ g'.stop := ih h
    rw [gap] at h
    dsimp only at h
    split at h
    · cases h
      exact Nat.le_refl _
    split at h
    · exact blank h rfl
    split at h
    · exact blank h rfl
    split at h
    · exact line h rfl
    split at h
    · split at h
      · cases h
      · next closed => exact Nat.le_trans (Nat.le_of_add_right_le (le_blockCommentEnd closed)) (ih h)
    split at h
    · exact line h rfl
    split at h
    · exact line h rfl
    · cases h
      exact Nat.le_refl _

/-! ### Escapes -/

theorem le_unicodeEscape? {n : Nat} (h : unicodeEscape? s i = some (n, j)) : i ≤ j := by
  unfold unicodeEscape? at h
  dsimp only at h
  split at h
  · have digits := s.le_skip (fun c => (Json.hexValue? c).isSome) (i + 1)
    split at h
    · split at h
      · cases h
        omega
      · cases h
    · cases h
  · obtain ⟨m, -, is⟩ := Option.map_eq_some_iff.mp h
    cases is
    omega

theorem le_unicodePair? {n : Nat} (h : unicodePair? s i = some (n, j)) : i ≤ j := by
  unfold unicodePair? at h
  split at h
  · cases h
  · next first =>
    have one := le_unicodeEscape? first
    split at h
    · split at h
      · next second =>
        have two := le_unicodeEscape? second
        split at h
        · obtain ⟨-, rfl⟩ := Prod.mk.inj (Option.some.inj h)
          omega
        · cases h
          exact one
      · cases h
        exact one
    · cases h
      exact one

theorem le_escape (s : Source) (i : Nat) : i ≤ (escape s i).2 := by
  unfold escape
  dsimp only
  split
  case h_7 => split <;> exact Nat.le_add_right _ _
  case h_8 => split <;> exact Nat.le_add_right _ _
  case h_9 =>
    split
    · next pair => exact Nat.le_of_succ_le (le_unicodePair? pair)
    · exact Nat.le_add_right _ _
  case h_10 =>
    split
    · exact Nat.le_add_right _ _
    · split <;> exact Nat.le_add_right _ _
  all_goals exact Nat.le_add_right _ _

/-! ### Strings, templates and regular expressions -/

theorem le_stringBody {start fuel : Nat} {quote : Char} {points all : List Nat}
    (h : stringBody s start quote fuel i points = .ok (all, j)) : i ≤ j := by
  induction fuel generalizing i points with
  | zero => cases h
  | succ fuel ih =>
    rw [stringBody] at h
    dsimp only at h
    split at h
    · cases h
    split at h
    · cases h
      omega
    split at h
    · cases h
    split at h
    · split at h
      · cases h
      · split at h
        · cases h
        · next read =>
          have on := le_escape s (i + 1)
          rw [read] at on
          exact Nat.le_of_succ_le (Nat.le_trans on (ih h))
    · exact Nat.le_of_succ_le (ih h)

theorem le_templateBody {start fuel : Nat} {sound last all : Bool}
    (h : templateBody s start fuel i sound = .ok (j, last, all)) : i ≤ j := by
  induction fuel generalizing i sound with
  | zero => cases h
  | succ fuel ih =>
    rw [templateBody] at h
    dsimp only at h
    split at h
    · cases h
    split at h
    · cases h
      omega
    split at h
    · cases h
      omega
    split at h
    · have on := le_escape s (i + 1)
      split at h
      · next read =>
        rw [read] at on
        exact Nat.le_of_succ_le (Nat.le_trans on (ih h))
      · next read =>
        rw [read] at on
        split at h
        · exact Nat.le_of_add_right_le (ih h)
        · exact Nat.le_of_succ_le (Nat.le_trans on (ih h))
    · exact Nat.le_of_succ_le (ih h)

theorem le_regexBody {start fuel : Nat} {inClass : Bool}
    (h : regexBody s start fuel i inClass = .ok j) : i ≤ j := by
  induction fuel generalizing i inClass with
  | zero => cases h
  | succ fuel ih =>
    rw [regexBody] at h
    dsimp only at h
    split at h
    · cases h
    split at h
    · split at h
      · cases h
      · exact Nat.le_of_add_right_le (ih h)
    split at h
    · cases h
      exact Nat.le_refl _
    split at h
    · exact Nat.le_of_succ_le (ih h)
    split at h
    · exact Nat.le_of_succ_le (ih h)
    · exact Nat.le_of_succ_le (ih h)

/-! ### Numbers -/

theorem le_digits {isDigit : Char → Bool} (h : digits s isDigit i = .ok j) : i ≤ j := by
  unfold digits at h
  dsimp only at h
  split at h
  · cases h
  split at h
  · cases h
  split at h
  · cases h
  · cases h
    exact s.le_skip _ i

theorem le_exponent (h : exponent s i = .ok j) : i ≤ j := by
  unfold exponent at h
  split at h
  · have on := le_digits h
    split at on <;> omega
  · cases h
    exact Nat.le_refl _

theorem le_numberEnd (h : numberEnd s i = .ok j) : i ≤ j := by
  have based {isDigit : Char → Bool} (h : ((digits s isDigit (i + 2)).map fun stop =>
      if s.at_ stop = 'n' then stop + 1 else stop) = .ok j) : i ≤ j := by
    obtain ⟨stop, read, is⟩ := exists_of_bind_eq_ok h
    have on := le_digits read
    dsimp only at is
    split at is <;> cases is <;> omega
  have run := s.le_skip Char.isDigit
  unfold numberEnd at h
  dsimp only at h
  split at h
  · exact based h
  split at h
  · exact based h
  split at h
  · exact based h
  split at h
  · have on := run i
    split at h
    · cases h
      exact on
    split at h
    · have more := run (s.skip Char.isDigit i + 1)
      have ends := le_exponent h
      omega
    · exact Nat.le_trans on (le_exponent h)
  split at h
  · cases h
  split at h
  · obtain ⟨stop, read, h⟩ := exists_of_bind_eq_ok h
    exact Nat.le_of_succ_le (Nat.le_trans (le_digits read) (le_exponent h))
  · obtain ⟨stop, read, h⟩ := exists_of_bind_eq_ok h
    have on := le_digits read
    split at h
    · cases h
      omega
    split at h
    · split at h
      · obtain ⟨stop', read', h⟩ := exists_of_bind_eq_ok h
        have on' := le_digits read'
        have ends := le_exponent h
        omega
      split at h
      · cases h
      · have ends := le_exponent h
        omega
    · exact Nat.le_trans on (le_exponent h)

/-! ### Words -/

theorem le_wordBody {fuel : Nat} {cs all : List Char} {escaped had : Bool}
    (h : wordBody s fuel i cs escaped = .ok (all, j, had)) : i ≤ j := by
  induction fuel generalizing i cs escaped with
  | zero =>
    cases h
    exact Nat.le_refl _
  | succ fuel ih =>
    rw [wordBody] at h
    generalize (if cs.isEmpty then isNameStart else isNamePart) = fits at h
    dsimp only at h
    split at h
    · cases h
      exact Nat.le_refl _
    split at h
    · split at h
      · cases h
      · split at h
        · next read =>
          split at h
          · exact Nat.le_of_add_right_le (Nat.le_trans (le_unicodeEscape? read) (ih h))
          · cases h
        · cases h
    split at h
    · exact Nat.le_of_succ_le (ih h)
    · cases h
      exact Nat.le_refl _

theorem le_wordAt {cs : List Char} {escaped : Bool} (h : wordAt s i = .ok (cs, j, escaped)) :
    i ≤ j := by
  unfold wordAt at h
  split at h
  · cases h
  · exact le_wordBody h

/-! ### Tokens -/

/-- What a token of a class ends at, and where a literal begins. -/
theorem spans_of_classify {cls : TokenClass} (h : classify s i = .ok (cls, j)) :
    i ≤ j ∧ ∀ value, cls = .string value → i < j ∧ i < s.size := by
  unfold classify at h
  dsimp only at h
  split at h
  · cases h
    exact ⟨Nat.le_refl _, fun _ is => by cases is⟩
  next inside =>
  split at h
  · obtain ⟨⟨points, stop⟩, read, is⟩ := exists_of_bind_eq_ok h
    cases is
    have on := le_stringBody read
    exact ⟨Nat.le_of_succ_le on, fun _ _ => ⟨on, Source.lt_size_of_not_isEnd inside⟩⟩
  split at h
  · obtain ⟨⟨stop, last, sound⟩, read, is⟩ := exists_of_bind_eq_ok h
    cases is
    exact ⟨Nat.le_of_succ_le (le_templateBody read), fun _ is => by cases is⟩
  split at h
  · obtain ⟨stop, read, h⟩ := exists_of_bind_eq_ok h
    split at h
    · cases h
    · cases h
      exact ⟨le_numberEnd read, fun _ is => by cases is⟩
  split at h
  · obtain ⟨⟨text, stop, escaped⟩, read, is⟩ := exists_of_bind_eq_ok h
    cases is
    exact ⟨Nat.le_of_succ_le (le_wordAt read), fun _ is => by cases is⟩
  split at h
  · obtain ⟨⟨text, stop, escaped⟩, read, is⟩ := exists_of_bind_eq_ok h
    cases is
    exact ⟨le_wordAt read, fun _ is => by cases is⟩
  split at h
  · split at h <;> cases h <;> exact ⟨Nat.le_add_right _ _, fun _ is => by cases is⟩
  · cases h

theorem forward_token : Forward token := by
  intro s i t h
  obtain ⟨g, skipped, h⟩ := exists_of_bind_eq_ok h
  obtain ⟨⟨cls, stop⟩, read, is⟩ := exists_of_bind_eq_ok h
  cases is
  obtain ⟨ordered, literal⟩ := spans_of_classify read
  exact ⟨le_gap skipped, ordered, literal⟩

theorem forward_markupChild : Forward markupChild := by
  intro s i t h
  have other {cls : TokenClass} {stop : Nat} (ordered : i ≤ stop)
      (plain : ∀ value, cls ≠ .string value) :
      (⟨cls, i, stop, false, none⟩ : Token).Spans s :=
    ⟨ordered, fun value is => absurd is (plain value)⟩
  unfold markupChild at h
  dsimp only at h
  split at h
  · cases h
    exact ⟨Nat.le_refl _, other (Nat.le_refl _) fun _ is => by cases is⟩
  split at h
  · cases h
    exact ⟨Nat.le_refl _, other (Nat.le_add_right _ _) fun _ is => by cases is⟩
  · cases h
    exact ⟨Nat.le_refl _, other (Nat.le_add_right _ _) fun _ is => by cases is⟩
  · split at h
    · cases h
    · cases h
      exact ⟨Nat.le_refl _, other (s.le_skip _ i) fun _ is => by cases is⟩

theorem forward_markupValue : Forward markupValue := by
  intro s i t h
  obtain ⟨g, skipped, h⟩ := exists_of_bind_eq_ok h
  dsimp only at h
  split at h
  · next opens =>
    split at h
    · cases h
    · cases h
      have on := s.le_skip (· ≠ s.at_ g.stop) (g.stop + 1)
      have inside : g.stop < s.size := Source.lt_size_of_not_isEnd (by simpa using opens.1)
      refine ⟨le_gap skipped, ?_, fun _ _ => ⟨?_, inside⟩⟩
      · exact Nat.le_succ_of_le (Nat.le_of_succ_le on)
      · exact Nat.lt_succ_of_lt on
  · exact forward_token h

theorem keeps_firstMark : Keeps fun _ t => .ok t.firstMark := by
  rintro s t t' spans ⟨⟩
  unfold Token.firstMark
  split
  · exact ⟨rfl, Nat.le_succ _, fun _ is => by cases is⟩
  · exact ⟨rfl, spans⟩

theorem keeps_regexToken : Keeps regexToken := by
  intro s t t' _ h
  obtain ⟨slash, read, h⟩ := exists_of_bind_eq_ok h
  dsimp only at h
  split at h
  · cases h
  · cases h
    have on := le_regexBody read
    have flags := s.le_skip isNamePart (slash + 1)
    refine ⟨rfl, ?_, fun _ is => by cases is⟩
    dsimp only
    omega

theorem keeps_templateToken : Keeps templateToken := by
  intro s t t' _ h
  obtain ⟨⟨stop, last, sound⟩, read, is⟩ := exists_of_bind_eq_ok h
  cases is
  exact ⟨rfl, Nat.le_of_succ_le (le_templateBody read), fun _ is => by cases is⟩

theorem keeps_markupWord : Keeps fun s t => .ok (markupWord s t) := by
  rintro s t t' spans ⟨⟩
  unfold markupWord
  split
  · exact ⟨rfl, Nat.le_trans spans.ordered (s.le_skip _ _), fun _ is => by cases is⟩
  · exact ⟨rfl, spans⟩

end Lexer

end HotReload.Script
