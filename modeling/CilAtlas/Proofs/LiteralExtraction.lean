import CilAtlas.Proofs.Escapes
import CilAtlas.Text.Blank

/-!
# Literals between other text

A quoted text can be found again and read back wherever it stands, as long as
what stands around it has no quotes of its own: backslashes and line feeds
outside literals mean nothing, and inside them quoting has escaped them.  Such a
text carries its literals through concatenation, joining and trimming.

Nothing is said about texts with quotes outside literals.
-/

namespace CilAtlas
namespace Quoted

/-- A text without double quotes. -/
def Unquoted (t : Text) : Prop :=
  mark ∉ t

instance (t : Text) : Decidable (Unquoted t) :=
  inferInstanceAs (Decidable (mark ∉ t))

@[simp] theorem unquoted_nil : Unquoted [] :=
  List.not_mem_nil

@[simp] theorem unquoted_append_iff {s t : Text} :
    Unquoted (s ++ t) ↔ Unquoted s ∧ Unquoted t := by
  simp [Unquoted]

@[simp] theorem unquoted_cons_iff {c : CodePoint} {t : Text} :
    Unquoted (c :: t) ↔ mark ≠ c ∧ Unquoted t := by
  simp [Unquoted]

theorem Unquoted.of_subset {s t : Text} (hunquoted : Unquoted t) (hpart : s ⊆ t) : Unquoted s :=
  fun hinside => hunquoted (hpart hinside)

theorem unquoted_join {separator : Text} {parts : List Text} (hbetween : Unquoted separator)
    (heach : ∀ part ∈ parts, Unquoted part) : Unquoted (Text.join separator parts) := by
  induction parts with
  | nil => exact unquoted_nil
  | cons part rest ih =>
    have hfirst := heach part List.mem_cons_self
    cases rest with
    | nil => exact hfirst
    | cons next rest =>
      have hothers := ih fun part' hmember => heach part' (List.mem_cons_of_mem _ hmember)
      exact unquoted_append_iff.mpr ⟨unquoted_append_iff.mpr ⟨hfirst, hbetween⟩, hothers⟩

/-! ### One literal -/

/-- What an escape letter is and what stands for it can be told apart from
everything else that a literal holds. -/
theorem letterEscapes_sound : ∀ entry ∈ letterEscapes,
    entry.1 ≠ newline ∧ digitBounds? entry.1 = none ∧ letterEscape entry.1 = entry.2 := by
  decide

/-- A code point is written as itself, or as an escape that stands for it. -/
theorem escape_cases (c : CodePoint) :
    (escape c = [c] ∧ c ≠ mark ∧ c ≠ escapeMark ∧ c ≠ newline) ∨
    ∃ letter, escape c = [escapeMark, letter] ∧ letter ≠ newline ∧
      digitBounds? letter = none ∧ letterEscape letter = c := by
  unfold escape escapeLetter?
  cases hfound : letterEscapes.find? fun entry => entry.2 = c ∧ entry.1 ≠ CodePoint.ofChar '\'' with
  | none =>
    refine .inl ⟨rfl, ?_⟩
    rw [List.find?_eq_none] at hfound
    refine ⟨?_, ?_, ?_⟩ <;> rintro rfl
    · exact hfound (CodePoint.ofChar '"', mark) (by decide) (by decide)
    · exact hfound (CodePoint.ofChar '\\', escapeMark) (by decide) (by decide)
    · exact hfound (CodePoint.ofChar 'n', newline) (by decide) (by decide)
  | some entry =>
    have hlisted := List.mem_of_find?_eq_some hfound
    have hstands : entry.2 = c := by
      have hholds := List.find?_some hfound
      simp only [decide_eq_true_eq] at hholds
      exact hholds.1
    obtain ⟨hline, hbounds, hletter⟩ := letterEscapes_sound entry hlisted
    exact .inr ⟨entry.1, rfl, hline, hbounds, hletter.trans hstands⟩

theorem inside?_plain {c : CodePoint} (hnotMark : c ≠ mark) (hnotLine : c ≠ newline)
    (hnotEscape : c ≠ escapeMark) (rest : Text) :
    inside? (c :: rest) = (inside? rest).map fun found => (c :: found.1, found.2) := by
  rw [inside?.eq_def]
  simp only [if_neg hnotMark, if_neg hnotLine, if_neg hnotEscape]

theorem inside?_escaped {d : CodePoint} (hnotLine : d ≠ newline) (rest : Text) :
    inside? (escapeMark :: d :: rest) =
      (inside? rest).map fun found => (escapeMark :: d :: found.1, found.2) := by
  have hnotMark : escapeMark ≠ mark := by decide
  have hnotLine' : escapeMark ≠ newline := by decide
  rw [inside?.eq_def]
  simp only [if_neg hnotMark, if_neg hnotLine', if_pos, if_neg hnotLine]

/-- What may stand between the quotes of a literal: plain code points and escaped
ones, none of them a line feed. -/
inductive Inner : Text → Prop
  | nil : Inner []
  | plain {c : CodePoint} {t : Text} (hnotMark : c ≠ mark) (hnotLine : c ≠ newline)
      (hnotEscape : c ≠ escapeMark) (hlater : Inner t) : Inner (c :: t)
  | escaped {c : CodePoint} {t : Text} (hnotLine : c ≠ newline) (hlater : Inner t) :
      Inner (escapeMark :: c :: t)

theorem Inner.newline_notMem {t : Text} (hinner : Inner t) : newline ∉ t := by
  induction hinner with
  | nil => exact List.not_mem_nil
  | plain _ hnotLine _ _ ih => simp [ih, Ne.symm hnotLine]
  | escaped hnotLine _ ih =>
    have hnotEscape : newline ≠ escapeMark := by decide
    simp [ih, Ne.symm hnotLine, hnotEscape]

/-- The inside of a literal ends at the first quote that can follow it. -/
theorem Inner.inside?_append {body : Text} (hinner : Inner body) (rest : Text) :
    inside? (body ++ mark :: rest) = some (body, rest) := by
  induction hinner with
  | nil =>
    rw [List.nil_append, inside?.eq_def]
    simp only [if_pos]
  | plain hnotMark hnotLine hnotEscape _ ih =>
    rw [List.cons_append, inside?_plain hnotMark hnotLine hnotEscape, ih]
    rfl
  | escaped hnotLine _ ih =>
    rw [List.cons_append, List.cons_append, inside?_escaped hnotLine, ih]
    rfl

theorem inner_of_inside? {t body rest : Text} (hfound : inside? t = some (body, rest)) :
    t = body ++ mark :: rest ∧ Inner body := by
  fun_induction inside? t generalizing body rest with
  | case1 => cases hfound
  | case2 =>
    cases hfound
    exact ⟨rfl, .nil⟩
  | case3 => cases hfound
  | case4 => cases hfound
  | case5 => cases hfound
  | case6 letter tail hnotLine _ _ ih =>
    obtain ⟨⟨inner, after⟩, hlater, hsame⟩ := Option.map_eq_some_iff.mp hfound
    obtain ⟨rfl, hinner⟩ := ih hlater
    cases hsame
    exact ⟨rfl, .escaped hnotLine hinner⟩
  | case7 c tail hnotMark hnotLine hnotEscape ih =>
    obtain ⟨⟨inner, after⟩, hlater, hsame⟩ := Option.map_eq_some_iff.mp hfound
    obtain ⟨rfl, hinner⟩ := ih hlater
    cases hsame
    exact ⟨rfl, .plain hnotMark hnotLine hnotEscape hinner⟩

/-- Reading from an opening quote finds exactly the inside that a quote follows. -/
theorem inside?_eq_some_iff {t body rest : Text} :
    inside? t = some (body, rest) ↔ t = body ++ mark :: rest ∧ Inner body := by
  constructor
  · exact inner_of_inside?
  · rintro ⟨rfl, hinner⟩
    exact hinner.inside?_append rest

/-- Escaping makes any text fit between quotes. -/
theorem inner_escaped (value : Text) : Inner (value.flatMap escape) := by
  induction value with
  | nil => exact .nil
  | cons c value ih =>
    rw [List.flatMap_cons]
    rcases escape_cases c with ⟨hescape, hnotMark, hnotEscape, hnotLine⟩ |
      ⟨letter, hescape, hnotLine, -⟩
    · rw [hescape]
      exact .plain hnotMark hnotLine hnotEscape ih
    · rw [hescape]
      exact .escaped hnotLine ih

/-- Reading the inside of a quoted text gives the text back. -/
theorem unescape_quoted (value : Text) : unescape (value.flatMap escape) = .ok value := by
  induction value with
  | nil =>
    rw [List.flatMap_nil, unescape]
  | cons c value ih =>
    rw [List.flatMap_cons]
    rcases escape_cases c with ⟨hescape, -, hnotEscape, -⟩ |
      ⟨letter, hescape, hnotLine, hbounds, rfl⟩
    · rw [hescape, List.singleton_append, unescape_plain hnotEscape, ih]
      rfl
    · have hunnumbered : numberedEscape? letter (value.flatMap escape) = none := by
        rw [numberedEscape?, hbounds]
      rw [hescape, List.cons_append, List.singleton_append,
        unescape_letter hnotLine hunnumbered, ih]
      rfl

/-! ### Several literals -/

theorem bodies_append {front : Text} (hunquoted : Unquoted front) (rest : Text) :
    bodies (front ++ rest) = bodies rest := by
  induction front with
  | nil => rfl
  | cons c front ih =>
    obtain ⟨hnotMark, hunquoted⟩ := unquoted_cons_iff.mp hunquoted
    rw [List.cons_append, bodies, if_neg (Ne.symm hnotMark), ih hunquoted]

/-- Behind a literal the search goes on. -/
theorem bodies_cons_of_closed {t body after : Text} (hfound : inside? t = some (body, after)) :
    bodies (mark :: t) = body :: bodies after := by
  rw [bodies, if_pos rfl]
  split
  · next hfound' =>
    cases hfound.symm.trans hfound'
    rfl
  · next hmissing =>
    cases hfound.symm.trans hmissing

theorem bodies_quote_append (value rest : Text) :
    bodies (quote value ++ rest) = value.flatMap escape :: bodies rest := by
  have hquote : quote value ++ rest = mark :: (value.flatMap escape ++ mark :: rest) := by
    rw [quote, List.cons_append, List.cons_append, List.append_assoc]
    rfl
  rw [hquote, bodies_cons_of_closed ((inner_escaped value).inside?_append rest)]

/-- A text that carries the literals of the given values, in order, and has no
quotes apart from theirs. -/
inductive Carries : Text → List Text → Prop
  | plain {t : Text} (hunquoted : Unquoted t) : Carries t []
  | literal {front rest : Text} {values : List Text} (hunquoted : Unquoted front) (value : Text)
      (hlater : Carries rest values) : Carries (front ++ (quote value ++ rest)) (value :: values)

namespace Carries

variable {s t : Text} {values values' : List Text}

theorem quote (value : Text) : Carries (quote value) [value] := by
  have h := Carries.literal unquoted_nil value (plain unquoted_nil)
  rwa [List.append_nil] at h

theorem bodies_eq (hcarries : Carries t values) : bodies t = values.map (·.flatMap escape) := by
  induction hcarries with
  | plain hunquoted =>
    have h := bodies_append hunquoted []
    rw [List.append_nil] at h
    rw [h, bodies]
    rfl
  | literal hunquoted value hlater ih =>
    rw [bodies_append hunquoted, bodies_quote_append, ih]
    rfl

/-- The literals of a text are those that it carries. -/
theorem literals_eq (hcarries : Carries t values) : literals t = .ok values := by
  rw [literals, hcarries.bodies_eq]
  have heach : (values.map (·.flatMap escape)).mapM unescape = .ok (values.map id) :=
    Outcome.mapM_map_eq_ok fun value _ => unescape_quoted value
  rwa [List.map_id] at heach

theorem append (hfirst : Carries s values) (hsecond : Carries t values') :
    Carries (s ++ t) (values ++ values') := by
  induction hfirst with
  | plain hunquoted =>
    cases hsecond with
    | plain hunquoted' => exact plain (unquoted_append_iff.mpr ⟨hunquoted, hunquoted'⟩)
    | literal hunquoted' value hlater =>
      rw [← List.append_assoc]
      exact literal (unquoted_append_iff.mpr ⟨hunquoted, hunquoted'⟩) value hlater
  | literal hunquoted value hlater ih =>
    rw [List.append_assoc, List.append_assoc]
    exact literal hunquoted value ih

theorem join {separator : Text} {parts : List Text} {valuess : List (List Text)}
    (hbetween : Unquoted separator) (heach : List.Forall₂ Carries parts valuess) :
    Carries (Text.join separator parts) valuess.flatten := by
  induction heach with
  | nil => exact plain unquoted_nil
  | @cons part own parts valuess hfirst hothers ih =>
    cases hothers with
    | nil =>
      rw [List.flatten_cons, List.flatten_nil, List.append_nil]
      exact hfirst
    | cons hnext hothers =>
      have h := (hfirst.append (plain hbetween)).append ih
      rw [List.append_nil] at h
      exact h

end Carries

/-! ### Trimming -/

/-- The text without the blanks at its end. -/
def trimEnd (t : Text) : Text :=
  (t.reverse.dropWhile CodePoint.isBlank).reverse

theorem mark_not_blank : ¬ mark.isBlank = true := by
  decide

theorem trimEnd_subset (t : Text) : trimEnd t ⊆ t := by
  intro c hmember
  have h := (List.dropWhile_sublist CodePoint.isBlank).subset (List.mem_reverse.mp hmember)
  exact List.mem_reverse.mp h

/-- The blanks at the end of a text lie behind its last literal. -/
theorem trimEnd_append_mark (front rest : Text) :
    trimEnd (front ++ mark :: rest) = front ++ mark :: trimEnd rest := by
  unfold trimEnd
  rw [List.reverse_append, List.reverse_cons, List.append_assoc, List.dropWhile_append]
  split
  · next hallBlank =>
    rw [List.isEmpty_iff.mp hallBlank, List.singleton_append,
      List.dropWhile_cons_of_neg mark_not_blank, List.reverse_cons, List.reverse_reverse]
    rfl
  · simp

theorem dropWhile_append_mark (front rest : Text) :
    (front ++ mark :: rest).dropWhile CodePoint.isBlank =
      front.dropWhile CodePoint.isBlank ++ mark :: rest := by
  rw [List.dropWhile_append]
  split
  · next hallBlank =>
    rw [List.isEmpty_iff.mp hallBlank, List.dropWhile_cons_of_neg mark_not_blank]
    rfl
  · rfl

namespace Carries

variable {t : Text} {values : List Text}

theorem dropBlanks (hcarries : Carries t values) :
    Carries (t.dropWhile CodePoint.isBlank) values := by
  cases hcarries with
  | plain hunquoted =>
    exact plain (hunquoted.of_subset (List.dropWhile_sublist CodePoint.isBlank).subset)
  | @literal front rest values hunquoted value hlater =>
    rw [Quoted.quote, List.cons_append, List.cons_append, dropWhile_append_mark]
    exact literal
      (hunquoted.of_subset (List.dropWhile_sublist CodePoint.isBlank).subset) value hlater

theorem trimEnd (hcarries : Carries t values) : Carries (trimEnd t) values := by
  induction hcarries with
  | @plain t hunquoted => exact plain (hunquoted.of_subset (trimEnd_subset t))
  | @literal front rest values hunquoted value hlater ih =>
    have hquote : front ++ (Quoted.quote value ++ rest) =
        (front ++ mark :: value.flatMap escape) ++ mark :: rest := by
      simp [Quoted.quote]
    have hquote' : (front ++ mark :: value.flatMap escape) ++ mark :: Quoted.trimEnd rest =
        front ++ (Quoted.quote value ++ Quoted.trimEnd rest) := by
      simp [Quoted.quote]
    rw [hquote, trimEnd_append_mark, hquote']
    exact literal hunquoted value ih

theorem trim (hcarries : Carries t values) : Carries t.trim values :=
  hcarries.dropBlanks.trimEnd

end Carries
end Quoted
end CilAtlas
