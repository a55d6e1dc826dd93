import Mathlib
import TextMode.Content.Splitter

/-!
# The grammar of mixed content

Mixed content is cut into spans: runs of plain text, of which no two are adjacent,
and islands with their delimiters.  The grammar is stated as a relation between a
text and its spans.  A reader that looks at one opening at a time decides it, so a
text has one cut at most.
-/

namespace TextMode

/-! ## Islands -/

/-- A backslash, the name of a reference command, blanks and a brace. -/
def IsReferenceOpening (opening : Text) : Prop :=
  ∃ name blanks : Text, (name = "ref".toList ∨ name = "eqref".toList) ∧
    (∀ c ∈ blanks, Text.isBlank c) ∧ opening = '\\' :: name ++ blanks ++ ['{']

def StartsReference (text : Text) : Prop :=
  ∃ opening body, IsReferenceOpening opening ∧ text = opening ++ body

def IslandKind.Opens : IslandKind → Text → Prop
  | dollar, opening => opening = ['$']
  | parenthesis, opening => opening = ['\\', '(']
  | reference, opening => IsReferenceOpening opening

/-- What ends an island outside its own braces. -/
def IslandKind.delimiter : IslandKind → Text
  | dollar => ['$']
  | parenthesis => ['\\', ')']
  | reference => ['}']

/-- The source of an island that is read from the given number of open braces on.
A backslash takes the next character with it.  Outside all braces the delimiter of
the island does not occur, and the source ends there. -/
inductive Inside (kind : IslandKind) : Nat → Text → Prop where
  | nil : Inside kind 0 []
  | openBrace {depth : Nat} {source : Text} :
      Inside kind (depth + 1) source → Inside kind depth ('{' :: source)
  | closeBrace {depth : Nat} {source : Text} :
      Inside kind depth source → Inside kind (depth + 1) ('}' :: source)
  | looseBrace {source : Text} :
      kind ≠ .reference → Inside kind 0 source → Inside kind 0 ('}' :: source)
  | escape {depth : Nat} {source : Text} {c : Char} :
      ¬ (depth = 0 ∧ kind = .parenthesis ∧ c = ')') →
      Inside kind depth source → Inside kind depth ('\\' :: c :: source)
  | char {depth : Nat} {source : Text} {c : Char} :
      c ≠ '{' → c ≠ '}' → c ≠ '\\' → ¬ (depth = 0 ∧ kind = .dollar ∧ c = '$') →
      Inside kind depth source → Inside kind depth (c :: source)

/-- Puts a text before the first part of a split text. -/
def prependSource (before : Text) (split : Option (Text × Text)) :
    Option (Text × Text) :=
  split.map fun parts => (before ++ parts.1, parts.2)

/-- Text in front of an island that is read belongs to its source and does not change what
is left behind. -/
theorem prependSource_eq_some_iff {before source rest : Text}
    {split : Option (Text × Text)} :
    prependSource before split = some (source, rest) ↔
      ∃ inner, split = some (inner, rest) ∧ source = before ++ inner := by
  simp only [prependSource, Option.map_eq_some_iff, Prod.mk.injEq, Prod.exists]
  constructor
  · rintro ⟨inner, after, hsplit, rfl, rfl⟩
    exact ⟨inner, hsplit, rfl⟩
  · rintro ⟨inner, hsplit, rfl⟩
    exact ⟨inner, rest, hsplit, rfl, rfl⟩

/-- The source of an island and what follows its delimiter. -/
def islandSource? (kind : IslandKind) (depth : Nat) : Text → Option (Text × Text)
  | [] => none
  | '\\' :: rest =>
      match rest with
      | [] => none
      | c :: rest =>
          if depth = 0 ∧ kind = .parenthesis ∧ c = ')' then some ([], rest)
          else prependSource ['\\', c] (islandSource? kind depth rest)
  | c :: rest =>
      if c = '{' then prependSource [c] (islandSource? kind (depth + 1) rest)
      else if c = '}' then
        if depth = 0 ∧ kind = .reference then some ([], rest)
        else prependSource [c] (islandSource? kind (depth - 1) rest)
      else if depth = 0 ∧ kind = .dollar ∧ c = '$' then some ([], rest)
      else prependSource [c] (islandSource? kind depth rest)

/-- What is read as the source of an island is one: no delimiter ends it before, and its
braces are balanced where the delimiter is. -/
theorem inside_of_islandSource? {kind : IslandKind} {depth : Nat}
    {text source rest : Text} (hread : islandSource? kind depth text = some (source, rest)) :
    Inside kind depth source ∧ text = source ++ (kind.delimiter ++ rest) := by
  fun_induction islandSource? kind depth text generalizing source with
  | case1 => simp at hread
  | case2 => simp at hread
  | case3 depth c tail hclose =>
      obtain ⟨rfl, rfl, rfl⟩ := hclose
      obtain ⟨rfl, rfl⟩ : [] = source ∧ tail = rest := by simpa using hread
      exact ⟨.nil, rfl⟩
  | case4 depth c tail hopen ih =>
      obtain ⟨inner, hinner, rfl⟩ := prependSource_eq_some_iff.mp hread
      obtain ⟨hinside, rfl⟩ := ih hinner
      exact ⟨.escape hopen hinside, by simp⟩
  | case5 depth tail _ ih =>
      obtain ⟨inner, hinner, rfl⟩ := prependSource_eq_some_iff.mp hread
      obtain ⟨hinside, rfl⟩ := ih hinner
      exact ⟨.openBrace hinside, by simp⟩
  | case6 depth tail hclose =>
      obtain ⟨rfl, rfl⟩ := hclose
      obtain ⟨rfl, rfl⟩ : [] = source ∧ tail = rest := by simpa using hread
      exact ⟨.nil, rfl⟩
  | case7 depth tail hopen _ _ ih =>
      obtain ⟨inner, hinner, rfl⟩ := prependSource_eq_some_iff.mp hread
      obtain ⟨hinside, rfl⟩ := ih hinner
      refine ⟨?_, by simp⟩
      cases depth with
      | zero => exact .looseBrace (fun hkind => hopen ⟨rfl, hkind⟩) hinside
      | succ depth => exact .closeBrace hinside
  | case8 depth c tail _ _ _ hclose =>
      obtain ⟨rfl, rfl, rfl⟩ := hclose
      obtain ⟨rfl, rfl⟩ : [] = source ∧ tail = rest := by simpa using hread
      exact ⟨.nil, rfl⟩
  | case9 depth c tail hescape hbrace hbrace' hopen ih =>
      obtain ⟨inner, hinner, rfl⟩ := prependSource_eq_some_iff.mp hread
      obtain ⟨hinside, rfl⟩ := ih hinner
      exact ⟨.char hbrace hbrace' hescape hopen hinside, by simp⟩

/-- A source with its delimiter behind it is read, whatever follows.  The first delimiter at
depth zero ends the island. -/
theorem islandSource?_of_inside {kind : IslandKind} {depth : Nat} {source : Text}
    (hinside : Inside kind depth source) (rest : Text) :
    islandSource? kind depth (source ++ (kind.delimiter ++ rest)) = some (source, rest) := by
  induction hinside with
  | nil => cases kind <;> rfl
  | openBrace _ ih => simp [islandSource?, ih, prependSource]
  | closeBrace _ ih => simp [islandSource?, ih, prependSource]
  | looseBrace hkind _ ih => simp [islandSource?, ih, hkind, prependSource]
  | escape hopen _ ih => simp [islandSource?, ih, hopen, prependSource]
  | char hbrace hbrace' hescape hopen _ ih =>
      simp [islandSource?, ih, hbrace, hbrace', hopen, prependSource]

/-- An island is read exactly if it has a source with its delimiter behind it. -/
theorem islandSource?_eq_some_iff {kind : IslandKind} {depth : Nat}
    {text source rest : Text} :
    islandSource? kind depth text = some (source, rest) ↔
      Inside kind depth source ∧ text = source ++ (kind.delimiter ++ rest) := by
  constructor
  · exact inside_of_islandSource?
  · rintro ⟨hinside, rfl⟩
    exact islandSource?_of_inside hinside rest

theorem islandSource?_length_le {kind : IslandKind} {depth : Nat}
    {text source rest : Text} (hread : islandSource? kind depth text = some (source, rest)) :
    rest.length ≤ text.length := by
  obtain ⟨-, rfl⟩ := islandSource?_eq_some_iff.mp hread
  simp only [List.length_append]
  omega

/-! ## Openings -/

theorem afterReferenceName?_eq_some_iff {text rest : Text} :
    afterReferenceName? text = some rest ↔
      ∃ name, (name = "ref".toList ∨ name = "eqref".toList) ∧ text = name ++ rest := by
  constructor
  · intro hread
    unfold afterReferenceName? at hread
    split at hread
    · exact ⟨"eqref".toList, .inr rfl, by simpa using hread⟩
    · exact ⟨"ref".toList, .inl rfl, by simpa using hread⟩
    · simp at hread
  · rintro ⟨name, rfl | rfl, rfl⟩ <;> rfl

/-- The length that is found is that of the opening without its backslash: the name, the
blanks behind it and the brace. -/
theorem referenceOpening?_eq_some_iff {rest : Text} {length : Nat} :
    referenceOpening? rest = some length ↔
      ∃ opening body, IsReferenceOpening ('\\' :: opening) ∧
        rest = opening ++ body ∧ length = opening.length := by
  constructor
  · intro hread
    simp only [referenceOpening?, Option.bind_eq_bind, Option.bind_eq_some_iff,
      afterReferenceName?_eq_some_iff] at hread
    obtain ⟨after, ⟨name, hname, rfl⟩, hbrace⟩ := hread
    split at hbrace
    · next body hdrop =>
        obtain ⟨blanks, hblanks, rfl⟩ :
            ∃ blanks, (∀ c ∈ blanks, Text.isBlank c) ∧ after = blanks ++ '{' :: body := by
          refine ⟨Text.leadingBlanks after, fun c hc => List.mem_takeWhile_imp hc, ?_⟩
          rw [← hdrop]
          exact List.takeWhile_append_dropWhile.symm
        refine ⟨name ++ blanks ++ ['{'], body, ⟨name, blanks, hname, hblanks, rfl⟩, ?_, ?_⟩
        · simp
        · simp only [Option.some.injEq, List.length_append, List.length_cons] at hbrace
          simp only [List.length_append, List.length_cons, List.length_nil]
          omega
    · simp at hbrace
  · rintro ⟨opening, body, ⟨name, blanks, hname, hblanks, hopening⟩, rfl, rfl⟩
    obtain rfl : opening = name ++ blanks ++ ['{'] := by simpa using hopening
    have hafter : afterReferenceName? (name ++ blanks ++ ['{'] ++ body) =
        some (blanks ++ '{' :: body) :=
      afterReferenceName?_eq_some_iff.mpr ⟨name, hname, by simp⟩
    have hdrop : Text.dropLeadingBlanks (blanks ++ '{' :: body) = '{' :: body := by
      rw [Text.dropLeadingBlanks, List.dropWhile_append_of_pos hblanks]
      rfl
    simp only [referenceOpening?, hafter, Option.bind_eq_bind, Option.bind_some, hdrop,
      List.length_append, List.length_cons, List.length_nil, Option.some.injEq]
    omega

/-- The opening that a text starts with and what follows it. -/
def opening? : Text → Option (IslandKind × Text × Text)
  | '$' :: rest => some (.dollar, ['$'], rest)
  | '\\' :: rest =>
      match referenceOpening? rest, rest with
      | some length, _ => some (.reference, '\\' :: rest.take length, rest.drop length)
      | none, '(' :: rest => some (.parenthesis, ['\\', '('], rest)
      | none, _ => none
  | _ => none

theorem opening?_of_referenceOpening? {rest : Text} {length : Nat}
    (hlength : referenceOpening? rest = some length) :
    opening? ('\\' :: rest) =
      some (.reference, '\\' :: rest.take length, rest.drop length) := by
  simp [opening?, hlength]

/-- An opening is found exactly if the text starts with one.  The three kinds of openings
differ in their first two characters, so there is one kind at most. -/
theorem opening?_eq_some_iff {text opening body : Text} {kind : IslandKind} :
    opening? text = some (kind, opening, body) ↔
      kind.Opens opening ∧ text = opening ++ body := by
  constructor
  · intro hread
    unfold opening? at hread
    split at hread
    · obtain ⟨rfl, rfl, rfl⟩ := by simpa using hread
      exact ⟨rfl, rfl⟩
    · split at hread
      · next rest length hlength =>
          obtain ⟨rfl, rfl, rfl⟩ := by simpa using hread
          obtain ⟨opening, body, hopening, rfl, rfl⟩ :=
            referenceOpening?_eq_some_iff.mp hlength
          exact ⟨by simpa [IslandKind.Opens] using hopening, by simp⟩
      · obtain ⟨rfl, rfl, rfl⟩ := by simpa using hread
        exact ⟨rfl, rfl⟩
      · simp at hread
    · simp at hread
  · rintro ⟨hopens, rfl⟩
    cases kind with
    | dollar =>
        obtain rfl : opening = ['$'] := hopens
        rfl
    | parenthesis =>
        obtain rfl : opening = ['\\', '('] := hopens
        rfl
    | reference =>
        obtain ⟨name, blanks, hname, hblanks, rfl⟩ := hopens
        have hlength : referenceOpening? (name ++ blanks ++ ['{'] ++ body) =
            some (name ++ blanks ++ ['{']).length :=
          referenceOpening?_eq_some_iff.mpr
            ⟨_, body, ⟨name, blanks, hname, hblanks, rfl⟩, rfl, rfl⟩
        have hread := opening?_of_referenceOpening? hlength
        rw [List.take_left, List.drop_left] at hread
        exact hread

/-- An opening is found whatever stands behind it.  A brace ends that of a reference, and
the others have a fixed length. -/
theorem opening?_append (kind : IslandKind) {opening : Text}
    (hopens : kind.Opens opening) (body : Text) :
    opening? (opening ++ body) = some (kind, opening, body) :=
  opening?_eq_some_iff.mpr ⟨hopens, rfl⟩

theorem IslandKind.Opens.length_pos {kind : IslandKind} {opening : Text}
    (hopens : kind.Opens opening) : 0 < opening.length := by
  cases kind with
  | dollar =>
      obtain rfl : opening = ['$'] := hopens
      decide
  | parenthesis =>
      obtain rfl : opening = ['\\', '('] := hopens
      decide
  | reference =>
      obtain ⟨name, blanks, -, -, rfl⟩ := hopens
      simp

theorem opening?_backslash_eq_none_iff {rest : Text} :
    opening? ('\\' :: rest) = none ↔
      rest.head? ≠ some '(' ∧ ¬ StartsReference ('\\' :: rest) := by
  constructor
  · intro hopening
    constructor
    · intro hhead
      obtain ⟨body, rfl⟩ := List.head?_eq_some_iff.mp hhead
      have hsome := opening?_append .parenthesis rfl body
      simp only [List.cons_append, List.nil_append, hopening, reduceCtorEq] at hsome
    · rintro ⟨opening, body, hopens, heq⟩
      have hsome := opening?_append .reference hopens body
      rw [← heq, hopening] at hsome
      simp at hsome
  · rintro ⟨hhead, hreference⟩
    apply Option.eq_none_iff_forall_ne_some.mpr
    rintro ⟨kind, opening, body⟩ hsome
    obtain ⟨hopens, heq⟩ := opening?_eq_some_iff.mp hsome
    cases kind with
    | dollar =>
        obtain rfl : opening = ['$'] := hopens
        simp at heq
    | parenthesis =>
        obtain rfl : opening = ['\\', '('] := hopens
        simp_all
    | reference => exact hreference ⟨opening, body, hopens, heq⟩

theorem referenceOpening?_eq_none {rest : Text} (hopening : opening? ('\\' :: rest) = none) :
    referenceOpening? rest = none := by
  cases hlength : referenceOpening? rest with
  | none => rfl
  | some length => simp [opening?_of_referenceOpening? hlength] at hopening

theorem opening?_char {c : Char} (rest : Text) (hdollar : c ≠ '$') (hescape : c ≠ '\\') :
    opening? (c :: rest) = none := by
  simp [opening?, hdollar, hescape]

/-! ## Spans -/

/-- The characters that a backslash makes literal in plain text. -/
def IsLiteralEscape (c : Char) : Prop :=
  c = '$' ∨ c = '{' ∨ c = '}' ∨ c = '\\'

instance (c : Char) : Decidable (IsLiteralEscape c) :=
  inferInstanceAs (Decidable (_ ∨ _))

/-- Drops the backslashes of literal escapes and nothing else. -/
def resolveEscapes : Text → Text
  | '\\' :: c :: rest =>
      if IsLiteralEscape c then c :: resolveEscapes rest
      else '\\' :: c :: resolveEscapes rest
  | c :: rest => c :: resolveEscapes rest
  | [] => []

theorem isTrigger_iff_isLiteralEscape {c : Char} : isTrigger c = true ↔ IsLiteralEscape c := by
  simp [isTrigger, IsLiteralEscape, or_assoc]

theorem resolveEscapes_pair (c : Char) :
    resolveEscapes ['\\', c] = if isTrigger c then [c] else ['\\', c] := by
  simp [resolveEscapes, isTrigger_iff_isLiteralEscape]

/-- A text whose escapes are resolved apart from what follows it. -/
def ResolvesAlone (unit : Text) : Prop :=
  resolveEscapes unit ≠ [] ∧
    ∀ run, resolveEscapes (unit ++ run) = resolveEscapes unit ++ resolveEscapes run

theorem resolveEscapes_char {c : Char} (hescape : c ≠ '\\') (rest : Text) :
    resolveEscapes (c :: rest) = c :: resolveEscapes rest := by
  simp [resolveEscapes, hescape]

theorem resolvesAlone_char {c : Char} (hescape : c ≠ '\\') : ResolvesAlone [c] := by
  constructor
  · simp [resolveEscapes_char hescape]
  · intro run
    rw [List.cons_append, resolveEscapes_char hescape, resolveEscapes_char hescape]
    rfl

/-- An escape is resolved by itself.  What follows it is not looked at, not even if it is a
backslash. -/
theorem resolvesAlone_escape (c : Char) : ResolvesAlone ['\\', c] := by
  constructor
  · simp only [resolveEscapes]
    split <;> simp
  · intro run
    simp only [resolveEscapes, List.cons_append, List.nil_append]
    split <;> rfl

/-- Resolving escapes drops backslashes and keeps the character behind each, so something is
left of every run. -/
theorem resolveEscapes_ne_nil {run : Text} (hrun : run ≠ []) : resolveEscapes run ≠ [] := by
  fun_cases resolveEscapes run with
  | case1 c rest hescape => exact List.cons_ne_nil _ _
  | case2 c rest hescape => exact List.cons_ne_nil _ _
  | case3 c rest hplain => exact List.cons_ne_nil _ _
  | case4 => exact absurd rfl hrun

/-- A stretch of mixed content as it is written. -/
inductive Span where
  | plain (run : Text)
  | island (kind : IslandKind) (opening source : Text)
  deriving DecidableEq, Repr

namespace Span

def raw : Span → Text
  | plain run => run
  | island kind opening source => opening ++ source ++ kind.delimiter

/-- The piece that a span becomes.  A reference is kept with its command. -/
def piece : Span → Piece
  | plain run => .plain (resolveEscapes run)
  | island .reference opening source => .island .reference (opening ++ source ++ ['}'])
  | island kind _ source => .island kind source

theorem length_resolveEscapes_le (run : Text) : (resolveEscapes run).length ≤ run.length := by
  fun_induction resolveEscapes run with
  | case1 c rest _ ih =>
      simp only [List.length_cons]
      omega
  | case2 c rest _ ih =>
      simp only [List.length_cons]
      omega
  | case3 c rest _ ih =>
      simp only [List.length_cons]
      omega
  | case4 => rfl

/-- The source of a piece is no longer than the raw text that it was read from. -/
theorem length_source_piece_le (span : Span) : span.piece.source.length ≤ span.raw.length := by
  cases span with
  | plain run => exact length_resolveEscapes_le run
  | island kind opening source =>
      cases kind <;> simp only [piece, Piece.source, raw, IslandKind.delimiter,
        List.length_append, List.length_cons, List.length_nil] <;> omega

end Span

/-- A run of plain text and the text that follows it.  Only the end of the whole
text leaves a backslash without a character to take. -/
inductive PlainRun : Text → Text → Prop where
  | nil {rest : Text} : PlainRun [] rest
  | char {c : Char} {run rest : Text} :
      c ≠ '$' → c ≠ '\\' → PlainRun run rest → PlainRun (c :: run) rest
  | escape {c : Char} {run rest : Text} :
      c ≠ '(' → ¬ StartsReference ('\\' :: c :: (run ++ rest)) →
      PlainRun run rest → PlainRun ('\\' :: c :: run) rest
  | strayBackslash : PlainRun ['\\'] []

/-- Cuts a text into spans from the left.  A run of plain text is not followed by
another one. -/
inductive Cut : Text → List Span → Prop where
  | nil : Cut [] []
  | plain {run rest : Text} {spans : List Span} :
      run ≠ [] → PlainRun run rest → (∀ other, spans.head? ≠ some (.plain other)) →
      Cut rest spans → Cut (run ++ rest) (.plain run :: spans)
  | island {kind : IslandKind} {opening source rest : Text} {spans : List Span} :
      kind.Opens opening → Inside kind 0 source → Cut rest spans →
      Cut (opening ++ (source ++ (kind.delimiter ++ rest)))
        (.island kind opening source :: spans)

/-- Nothing of a text is lost in its cut.  The raw texts of the spans are the text,
delimiters and escapes included. -/
theorem Cut.flatMap_raw {text : Text} {spans : List Span} (hcut : Cut text spans) :
    spans.flatMap Span.raw = text := by
  induction hcut with
  | nil => rfl
  | plain _ _ _ _ ih => rw [List.flatMap_cons, ih, Span.raw]
  | island _ _ _ ih => simp only [List.flatMap_cons, ih, Span.raw, List.append_assoc]

theorem Cut.run_ne_nil {text run : Text} {spans : List Span} (hcut : Cut text spans)
    (hrun : .plain run ∈ spans) : run ≠ [] := by
  induction hcut with
  | nil => cases hrun
  | plain hne _ _ _ ih =>
      rcases List.mem_cons.mp hrun with heq | hrun
      · rwa [Span.plain.inj heq]
      · exact ih hrun
  | island _ _ _ ih =>
      rcases List.mem_cons.mp hrun with heq | hrun
      · cases heq
      · exact ih hrun

/-- Puts plain text before spans. -/
def prependPlain (run : Text) : List Span → List Span
  | .plain other :: spans => .plain (run ++ other) :: spans
  | spans => .plain run :: spans

/-- The cut of a text. -/
def cut? (text : Text) : Option (List Span) :=
  match _hopening : opening? text with
  | some (kind, opening, body) =>
      match _hsource : islandSource? kind 0 body with
      | some (source, rest) => (cut? rest).map (.island kind opening source :: ·)
      | none => none
  | none =>
      match text with
      | [] => some []
      | c :: rest =>
          if c = '\\' then
            match rest with
            | [] => some [.plain ['\\']]
            | d :: rest => (cut? rest).map (prependPlain ['\\', d])
          else (cut? rest).map (prependPlain [c])
termination_by text.length
decreasing_by
  · obtain ⟨hopens, rfl⟩ := opening?_eq_some_iff.mp _hopening
    have hrest := islandSource?_length_le _hsource
    have hpos := hopens.length_pos
    simp only [List.length_append]
    omega
  · simp only [List.length_cons]
    omega
  · simp

/-- A character or an escape in front of a cut joins the plain text there, or becomes a span
of its own in front of an island. -/
theorem Cut.prepend (unit : Text) {rest : Text} {spans : List Span} (hunit : unit ≠ [])
    (hextend : ∀ run tail, rest = run ++ tail → PlainRun run tail →
      PlainRun (unit ++ run) tail)
    (hcut : Cut rest spans) : Cut (unit ++ rest) (prependPlain unit spans) := by
  cases hcut with
  | nil =>
      have hrun := hextend [] [] rfl .nil
      simpa [prependPlain] using Cut.plain (by simpa using hunit) hrun (by simp) .nil
  | @plain run tail spans hrun hplain hhead htail =>
      have hrun' := hextend run tail rfl hplain
      simpa [prependPlain] using Cut.plain (by simp [hunit]) hrun' hhead htail
  | @island kind opening source tail spans hopens hinside htail =>
      have hisland := Cut.island hopens hinside htail
      have hrun := hextend [] _ rfl .nil
      simpa [prependPlain] using Cut.plain (by simpa using hunit) hrun (by simp) hisland

/-- The cut that is read is a cut.  The induction is on the length of the text, since an
island takes a whole source with it. -/
theorem cut_of_cut? {text : Text} {spans : List Span} (hread : cut? text = some spans) :
    Cut text spans := by
  fun_induction cut? text generalizing spans with
  | case1 text kind opening body hopening source rest hsource ih =>
      obtain ⟨inner, hinner, rfl⟩ := Option.map_eq_some_iff.mp hread
      obtain ⟨hopens, rfl⟩ := opening?_eq_some_iff.mp hopening
      obtain ⟨hinside, rfl⟩ := islandSource?_eq_some_iff.mp hsource
      exact .island hopens hinside (ih hinner)
  | case2 => simp at hread
  | case3 =>
      obtain rfl : [] = spans := by simpa using hread
      exact .nil
  | case4 =>
      obtain rfl : [.plain ['\\']] = spans := by simpa using hread
      exact .plain (by simp) .strayBackslash (by simp) .nil
  | case5 c rest hopening ih =>
      obtain ⟨inner, hinner, rfl⟩ := Option.map_eq_some_iff.mp hread
      obtain ⟨hhead, hreference⟩ := opening?_backslash_eq_none_iff.mp hopening
      refine Cut.prepend ['\\', c] (by simp) ?_ (ih hinner)
      rintro run tail rfl hrun
      exact .escape (by simpa using hhead) hreference hrun
  | case6 c rest hopening hescape ih =>
      obtain ⟨inner, hinner, rfl⟩ := Option.map_eq_some_iff.mp hread
      have hdollar : c ≠ '$' := by
        rintro rfl
        simp [opening?] at hopening
      refine Cut.prepend [c] (by simp) ?_ (ih hinner)
      rintro run tail rfl hrun
      exact .char hdollar hescape hrun

theorem cut?_island {kind : IslandKind} {opening source rest : Text}
    (hopens : kind.Opens opening) (hinside : Inside kind 0 source) :
    cut? (opening ++ (source ++ (kind.delimiter ++ rest))) =
      (cut? rest).map (.island kind opening source :: ·) := by
  have hopening := opening?_append kind hopens (source ++ (kind.delimiter ++ rest))
  have hsource := islandSource?_of_inside hinside rest
  rw [cut?]
  split
  · next kind' opening' body' hopening' =>
      obtain ⟨rfl, rfl, rfl⟩ := by simpa [hopening] using hopening'
      split <;> simp_all
  · simp_all

theorem cut?_nil : cut? [] = some [] := by
  rw [cut?]
  rfl

theorem cut?_strayBackslash : cut? ['\\'] = some [.plain ['\\']] := by
  rw [cut?]
  rfl

theorem cut?_char {c : Char} {rest : Text} (hdollar : c ≠ '$') (hescape : c ≠ '\\') :
    cut? (c :: rest) = (cut? rest).map (prependPlain [c]) := by
  have hopening := opening?_char rest hdollar hescape
  rw [cut?]
  split
  · simp_all
  · exact if_neg hescape

theorem cut?_escape {c : Char} {rest : Text} (hopening : opening? ('\\' :: c :: rest) = none) :
    cut? ('\\' :: c :: rest) = (cut? rest).map (prependPlain ['\\', c]) := by
  rw [cut?]
  split
  · simp_all
  · rfl

/-- A run of plain text is read as one span.  No plain span may follow it, for then the two
would be one. -/
theorem cut?_plain {run rest : Text} {spans : List Span} (hplain : PlainRun run rest)
    (hhead : ∀ other, spans.head? ≠ some (.plain other)) (hrest : cut? rest = some spans) :
    cut? (run ++ rest) = some (if run = [] then spans else .plain run :: spans) := by
  have hprepend : ∀ unit run' : Text, unit ≠ [] →
      prependPlain unit (if run' = [] then spans else .plain run' :: spans) =
        .plain (unit ++ run') :: spans := by
    intro unit run' hunit
    split
    · next hrun =>
        subst hrun
        cases spans with
        | nil => simp [prependPlain]
        | cons span spans => cases span <;> simp_all [prependPlain]
    · rfl
  induction hplain with
  | nil => simpa using hrest
  | char hdollar hescape _ ih =>
      rw [List.cons_append, cut?_char hdollar hescape, ih hrest, Option.map_some,
        hprepend _ _ (by simp)]
      rfl
  | escape hhead' hreference _ ih =>
      have hopening := opening?_backslash_eq_none_iff.mpr ⟨by simpa using hhead', hreference⟩
      rw [List.cons_append, List.cons_append, cut?_escape hopening, ih hrest,
        Option.map_some, hprepend _ _ (by simp)]
      rfl
  | strayBackslash =>
      obtain rfl : [] = spans := by simpa [cut?_nil] using hrest
      exact cut?_strayBackslash

/-- Every cut is read.  The induction is on the cut: an island is read by its own rule, and
plain text one character or escape after the other. -/
theorem cut?_of_cut {text : Text} {spans : List Span} (hcut : Cut text spans) :
    cut? text = some spans := by
  induction hcut with
  | nil => exact cut?_nil
  | plain hrun hplain hhead _ ih => rw [cut?_plain hplain hhead ih, if_neg hrun]
  | island hopens hinside _ ih => rw [cut?_island hopens hinside, ih, Option.map_some]

/-- Reading a cut and being one are the same.  This is what lets the machine be compared
with the grammar. -/
theorem cut?_eq_some_iff {text : Text} {spans : List Span} :
    cut? text = some spans ↔ Cut text spans :=
  ⟨cut_of_cut?, cut?_of_cut⟩

/-- A text has one cut at most, since reading it gives one result. -/
theorem Cut.unique {text : Text} {left right : List Span} (hleft : Cut text left)
    (hright : Cut text right) : left = right := by
  have heq := (cut?_of_cut hleft).symm.trans (cut?_of_cut hright)
  exact Option.some.inj heq

end TextMode
