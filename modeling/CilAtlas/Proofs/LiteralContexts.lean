import CilAtlas.Proofs.LiteralExtraction

/-!
# Literals and what stands around them

A literal ends where the grammar of its inside lets a quote follow, and no inside holds
a line feed.  So a line feed is a boundary that no literal crosses, whatever quotes and
backslashes stand before it, and a listing can be read line by line.  A quoted text is
found and read back wherever it stands between texts without quotes.

A text around a literal that holds quotes of its own can pair them with those of the
literal on the same line; only the next line is safe from that.
-/

namespace CilAtlas
namespace Quoted

/-! ### Lines -/

theorem newline_ne_mark : newline ≠ mark := by
  decide

/-- A literal that is opened before a line feed is closed before it or not at all. -/
theorem inside?_append_newline (a b : Text) :
    inside? (a ++ newline :: b) =
      (inside? a).map fun found => (found.1, found.2 ++ newline :: b) := by
  cases hfound : inside? a with
  | some pair =>
    obtain ⟨body, rest⟩ := pair
    obtain ⟨rfl, hinner⟩ := inside?_eq_some_iff.mp hfound
    exact inside?_eq_some_iff.mpr ⟨by simp, hinner⟩
  | none =>
    rw [Option.map_none, Option.eq_none_iff_forall_ne_some]
    rintro ⟨body, rest⟩ hcrossing
    obtain ⟨hsplit, hinner⟩ := inside?_eq_some_iff.mp hcrossing
    have hclear : newline ∉ body ++ [mark] := by
      simp [hinner.newline_notMem, newline_ne_mark]
    rw [List.append_cons body mark rest] at hsplit
    -- the closing quote stands before the line feed, so `a` holds the whole literal
    rcases List.append_eq_append_iff.mp hsplit with ⟨between, hcut, hbehind⟩ | ⟨between, hcut, -⟩
    · cases between with
      | nil =>
        rw [List.append_nil] at hcut
        rw [← hcut, hinner.inside?_append] at hfound
        cases hfound
      | cons c between =>
        obtain ⟨rfl, -⟩ := List.cons.inj hbehind
        exact hclear (by rw [hcut]; simp)
    · rw [hcut, ← List.append_cons, hinner.inside?_append] at hfound
      cases hfound

/-- A quote that is not closed opens nothing, and the search restarts behind it. -/
theorem bodies_cons_of_open {t : Text} (hmissing : inside? t = none) :
    bodies (mark :: t) = bodies t := by
  rw [bodies, if_pos rfl]
  split
  · next hfound =>
    cases hmissing.symm.trans hfound
  · rfl

theorem bodies_append_newline (a b : Text) : bodies (a ++ newline :: b) = bodies a ++ bodies b := by
  -- along the search in `a`: each of its steps is taken in the longer text as well
  induction a using bodies.induct with
  | case1 =>
    rw [List.nil_append, bodies.eq_def, bodies]
    simp only [if_neg newline_ne_mark, List.nil_append]
  | case2 rest body after hfound ih =>
    have hclosed := inside?_append_newline rest b
    rw [hfound] at hclosed
    rw [List.cons_append, bodies_cons_of_closed hclosed, bodies_cons_of_closed hfound, ih]
    rfl
  | case3 rest hmissing ih =>
    have hstillOpen := inside?_append_newline rest b
    rw [hmissing] at hstillOpen
    rw [List.cons_append, bodies_cons_of_open hstillOpen, bodies_cons_of_open hmissing, ih]
  | case4 c rest hnotMark ih =>
    rw [List.cons_append, bodies.eq_def, bodies.eq_def (c :: rest)]
    simp only [if_neg hnotMark, ih]

theorem literals_append_newline (a b : Text) :
    literals (a ++ newline :: b) = do return (← literals a) ++ (← literals b) := by
  rw [literals, bodies_append_newline, List.mapM_append]
  rfl

/-- The literals of lines that are put together are those of each line read alone. -/
theorem literals_join_newline (lines : List Text) :
    literals (Text.join [newline] lines) = do return (← lines.mapM literals).flatten := by
  induction lines with
  | nil =>
    rw [Text.join, literals, bodies]
    rfl
  | cons line rest ih =>
    rw [List.mapM_cons]
    cases rest with
    | nil =>
      rw [Text.join]
      cases literals line with
      | error e => rfl
      | ok values => simp [bind, Except.bind, pure, Except.pure]
    | cons next rest =>
      have hsplit : Text.join [newline] (line :: next :: rest) =
          line ++ newline :: Text.join [newline] (next :: rest) := by
        rw [Text.join, List.append_assoc, List.singleton_append]
        simp
      rw [hsplit, literals_append_newline, ih]
      cases literals line with
      | error e => rfl
      | ok values =>
        cases (next :: rest).mapM literals with
        | error e => rfl
        | ok later => rfl

/-- Only an escape above the last code point makes an extraction fail. -/
theorem literals_error_iff (t : Text) :
    (∃ e, literals t = .error e) ↔ ∃ body ∈ bodies t, HasWide body := by
  have hreadable := literals_ok_iff t
  cases houtcome : literals t with
  | error e =>
    rw [houtcome] at hreadable
    by_cases hwide : ∃ body ∈ bodies t, HasWide body
    · exact iff_of_true ⟨e, rfl⟩ hwide
    · have hreturned := hreadable.mpr fun body hmember hbody => hwide ⟨body, hmember, hbody⟩
      simp at hreturned
  | ok values =>
    have hnarrow := hreadable.mp ⟨values, houtcome⟩
    refine iff_of_false (by simp) ?_
    rintro ⟨body, hmember, hwide⟩
    exact hnarrow body hmember hwide

/-- String literals never cross lines: the literals of two texts with a line feed between
them are those of the first followed by those of the second, where a failure in the first
comes before any in the second.  So each line of a listing has the literals that it has
alone.  An extraction fails for an escape above the last code point and for nothing else. -/
theorem literals_line_by_line :
    (∀ a b, literals (a ++ newline :: b) = do return (← literals a) ++ (← literals b)) ∧
    (∀ lines, literals (Text.join [newline] lines) = do
      return (← lines.mapM literals).flatten) ∧
    ∀ t, (∃ e, literals t = .error e) ↔ ∃ body ∈ bodies t, HasWide body :=
  ⟨literals_append_newline, literals_join_newline, literals_error_iff⟩

-- the first line leaves a quote open and ends in a backslash
example : literals (lit "say \"a\\" ++ newline :: lit "\"d\\\"\" e\"") = .ok [lit "d\""] := by
  cbv

/-! ### Quoted texts -/

/-- A quoted text has its escaped form between two quotes, all on one line. -/
theorem newline_notMem_quote (value : Text) : newline ∉ quote value := by
  simp [quote, newline_ne_mark, (inner_escaped value).newline_notMem]

/-- Literals with unquoted texts before, between and behind them. -/
theorem carries_parts {front : Text} (hunquoted : Unquoted front) {parts : List (Text × Text)}
    (hbetween : ∀ part ∈ parts, Unquoted part.2) :
    Carries (front ++ parts.flatMap fun part => quote part.1 ++ part.2) (parts.map Prod.fst) := by
  induction parts generalizing front with
  | nil => simpa using Carries.plain hunquoted
  | cons part parts ih =>
    obtain ⟨hnext, hothers⟩ := List.forall_mem_cons.mp hbetween
    rw [List.flatMap_cons, List.append_assoc]
    exact .literal hunquoted part.1 (ih hnext hothers)

/-- Quoting is inverted by reading in any context.  A quoted text stands on one line and
its inside reads back as the text.  Quoted texts with anything but quotes around them are
exactly the literals that are found, in order; `parts` pairs each text with what follows
its literal. -/
theorem quoted_parts_read_back :
    (∀ value, ∃ inner, quote value = mark :: inner ++ [mark] ∧ unescape inner = .ok value ∧
      newline ∉ quote value) ∧
    ∀ (front : Text) (parts : List (Text × Text)), Unquoted front →
      (∀ part ∈ parts, Unquoted part.2) →
      literals (front ++ parts.flatMap fun part => quote part.1 ++ part.2) =
        .ok (parts.map Prod.fst) := by
  refine ⟨?_, ?_⟩
  · intro value
    exact ⟨value.flatMap escape, rfl, unescape_quoted value, newline_notMem_quote value⟩
  · intro front parts hunquoted hbetween
    exact (carries_parts hunquoted hbetween).literals_eq

/-- Texts that end in backslashes, look like escapes, or hold a quote and a line feed, each
with what follows its literal. -/
def awkwardParts : List (Text × Text) :=
  [(lit "C:\\", lit "\\"), (lit "\\u0041", lit "\n\\\n"), (lit "\x0012", []),
    (lit "\"\n", lit "\\")]

theorem awkwardParts_read_back :
    Unquoted (lit "\\") ∧ (∀ part ∈ awkwardParts, Unquoted part.2) ∧
      literals (lit "\\" ++ awkwardParts.flatMap fun part => quote part.1 ++ part.2) =
        .ok [lit "C:\\", lit "\\u0041", lit "\x0012", lit "\"\n"] := by
  have haround : Unquoted (lit "\\") := by decide
  have hbetween : ∀ part ∈ awkwardParts, Unquoted part.2 := by decide
  exact ⟨haround, hbetween, quoted_parts_read_back.2 (lit "\\") awkwardParts haround hbetween⟩

end Quoted
end CilAtlas
