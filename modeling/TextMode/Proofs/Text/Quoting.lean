import Mathlib
import TextMode.Text.Decimal
import TextMode.Text.Quoted

/-!
# Reading quoted texts and numbers

A quoted text ends at the next bare delimiter, and each escape names one character.  So
a quoted text can be read back in front of any other text, whatever characters it holds.
-/

namespace TextMode.Text

/-! ## Numbers -/

def hexValue (c : Char) : Nat :=
  if c.isDigit then c.toNat - '0'.toNat else c.toNat - 'a'.toNat + 10

/-- The number that a list of hexadecimal digits denotes. -/
def ofHexDigits (digits : Text) : Nat :=
  digits.foldl (fun value c => 16 * value + hexValue c) 0

theorem hexValue_hexDigit : ∀ n < 16, hexValue (hexDigit n) = n := by
  decide

theorem length_hexDigits (width n : Nat) : (hexDigits width n).length = width := by
  induction width generalizing n with
  | zero => rfl
  | succ width ih => rw [hexDigits, List.length_append, ih, List.length_singleton]

theorem ofHexDigits_hexDigits (width n : Nat) :
    ofHexDigits (hexDigits width n) = n % 16 ^ width := by
  induction width generalizing n with
  | zero => simp [ofHexDigits, hexDigits, Nat.mod_one]
  | succ width ih =>
      have hlast : n % 16 < 16 := Nat.mod_lt n (by decide)
      calc
        ofHexDigits (hexDigits (width + 1) n) =
            16 * ofHexDigits (hexDigits width (n / 16)) + hexValue (hexDigit (n % 16)) := by
          rw [hexDigits, ofHexDigits, List.foldl_append]
          rfl
        _ = n % 16 + 16 * (n / 16 % 16 ^ width) := by
          rw [ih, hexValue_hexDigit _ hlast, Nat.add_comm]
        _ = n % 16 ^ (width + 1) := by
          rw [Nat.pow_succ', Nat.mod_mul]

theorem ofDigits_decimal (n : Nat) : ofDigits (decimal n) = n := by
  have hdigits := Nat.ofDigitChars_ten_toDigits (n := n)
  rwa [Nat.ofDigitChars_eq_foldl] at hdigits

def ofSignedDecimal : Text → Int
  | '-' :: digits => -(ofDigits digits : Int)
  | digits => ofDigits digits

theorem isDigit_of_mem_decimal {n : Nat} {c : Char} (hc : c ∈ decimal n) : c.isDigit :=
  Nat.isDigit_of_mem_toDigits (by decide) (by decide) hc

theorem sign_or_isDigit_of_mem_signedDecimal {n : Int} {c : Char} (hc : c ∈ signedDecimal n) :
    c = '-' ∨ c.isDigit := by
  cases n with
  | ofNat n => exact .inr (isDigit_of_mem_decimal hc)
  | negSucc n =>
      rcases List.mem_cons.mp hc with hsign | hdigit
      · exact .inl hsign
      · exact .inr (isDigit_of_mem_decimal hdigit)

theorem ofSignedDecimal_signedDecimal (n : Int) : ofSignedDecimal (signedDecimal n) = n := by
  cases n with
  | ofNat n =>
      have hsign : (decimal n).head? ≠ some '-' := by
        intro hhead
        have hdigit := isDigit_of_mem_decimal (List.mem_of_head? hhead)
        exact absurd hdigit (by decide)
      rw [signedDecimal, ofSignedDecimal.eq_2, ofDigits_decimal]
      · rfl
      · intro digits hdigits
        exact hsign (by rw [hdigits]; rfl)
  | negSucc n =>
      rw [signedDecimal, ofSignedDecimal, ofDigits_decimal]
      rfl

/-! ## Characters -/

/-- The character whose code point is written in `width` hexadecimal digits. -/
def readCodePoint (width : Nat) (text : Text) : Char × Text :=
  (Char.ofNat (ofHexDigits (text.take width)), text.drop width)

/-- Reads one character between quotes; `c` is its first one and `rest` what follows. -/
def unescape (c : Char) (rest : Text) : Char × Text :=
  if c = '\\' then
    match rest with
    | 'n' :: rest => ('\n', rest)
    | 'r' :: rest => ('\r', rest)
    | 't' :: rest => ('\t', rest)
    | 'x' :: rest => readCodePoint 2 rest
    | 'u' :: rest => readCodePoint 4 rest
    | 'U' :: rest => readCodePoint 8 rest
    | c :: rest => (c, rest)
    | [] => (c, [])
  else (c, rest)

theorem length_unescape_le (c : Char) (rest : Text) :
    (unescape c rest).2.length ≤ rest.length := by
  unfold unescape
  split
  · split <;> simp only [readCodePoint, List.length_drop, List.length_cons, List.length_nil] <;>
      omega
  · rfl

theorem readCodePoint_hexDigits {width : Nat} {c : Char} (hwidth : c.toNat < 16 ^ width)
    (rest : Text) : readCodePoint width (hexDigits width c.toNat ++ rest) = (c, rest) := by
  have hlength := length_hexDigits width c.toNat
  rw [readCodePoint, List.take_left' hlength, List.drop_left' hlength, ofHexDigits_hexDigits,
    Nat.mod_eq_of_lt hwidth, Char.ofNat_toNat]

/-- Either kind of quote. -/
def IsDelimiter (c : Char) : Prop :=
  c = '\'' ∨ c = '"'

instance (c : Char) : Decidable (IsDelimiter c) :=
  inferInstanceAs (Decidable (_ ∨ _))

theorem backslash_ne_delimiter {delimiter : Char} (hdelimiter : IsDelimiter delimiter) :
    '\\' ≠ delimiter := by
  rcases hdelimiter with rfl | rfl <;> decide

/-- The written form does not start with the delimiter, and it is read back as the
character. -/
def Unescapes (delimiter : Char) (written : Text) (c : Char) : Prop :=
  ∃ first others, written = first :: others ∧ first ≠ delimiter ∧
    ∀ rest, unescape first (others ++ rest) = (c, rest)

theorem unescapes_code {delimiter c : Char} (hdelimiter : IsDelimiter delimiter)
    (letter : Char) {width : Nat} (hwidth : c.toNat < 16 ^ width)
    (hletter : ∀ rest, unescape '\\' (letter :: rest) = readCodePoint width rest) :
    Unescapes delimiter ('\\' :: letter :: hexDigits width c.toNat) c := by
  refine ⟨'\\', letter :: hexDigits width c.toNat, rfl, backslash_ne_delimiter hdelimiter, ?_⟩
  intro rest
  rw [List.cons_append, hletter, readCodePoint_hexDigits hwidth]

theorem unescapes_escapeChar {delimiter : Char} (hdelimiter : IsDelimiter delimiter)
    (c : Char) : Unescapes delimiter (escapeChar delimiter c) c := by
  have hbackslash := backslash_ne_delimiter hdelimiter
  unfold escapeChar
  split_ifs with hself hfeed hreturn htab hprintable hshort hmiddle
  · refine ⟨'\\', [c], rfl, hbackslash, ?_⟩
    intro rest
    simp only [Bool.or_eq_true, decide_eq_true_eq] at hself
    rcases hself with rfl | rfl
    · rcases hdelimiter with rfl | rfl <;> rfl
    · rfl
  · subst hfeed
    exact ⟨'\\', ['n'], rfl, hbackslash, fun _ => rfl⟩
  · subst hreturn
    exact ⟨'\\', ['r'], rfl, hbackslash, fun _ => rfl⟩
  · subst htab
    exact ⟨'\\', ['t'], rfl, hbackslash, fun _ => rfl⟩
  · simp only [Bool.or_eq_true, decide_eq_true_eq, not_or] at hself
    exact ⟨c, [], rfl, hself.1, fun rest => if_neg hself.2⟩
  · exact unescapes_code hdelimiter 'x' hshort fun _ => rfl
  · exact unescapes_code hdelimiter 'u' hmiddle fun _ => rfl
  · have hvalid : c.toNat < 16 ^ 8 := c.val.toNat_lt
    exact unescapes_code hdelimiter 'U' hvalid fun _ => rfl

/-! ## Quoted texts -/

/-- Reads a quoted text behind its first delimiter. -/
def readQuoted? (delimiter : Char) : Text → Option (Text × Text)
  | [] => none
  | c :: rest =>
      if c = delimiter then some ([], rest)
      else
        (readQuoted? delimiter (unescape c rest).2).map fun parts =>
          ((unescape c rest).1 :: parts.1, parts.2)
termination_by text => text.length
decreasing_by
  have hlength := length_unescape_le c rest
  simp only [List.length_cons]
  omega

/-- The characters between quotes are read back one by one, up to the delimiter.  No written
character starts with a bare delimiter, so none of them ends the text too early. -/
theorem readQuoted?_flatMap {delimiter : Char} (hdelimiter : IsDelimiter delimiter)
    (s rest : Text) :
    readQuoted? delimiter (s.flatMap (escapeChar delimiter) ++ delimiter :: rest) =
      some (s, rest) := by
  induction s with
  | nil => rw [List.flatMap_nil, List.nil_append, readQuoted?, if_pos rfl]
  | cons c s ih =>
      obtain ⟨first, others, hwritten, hfirst, hread⟩ := unescapes_escapeChar hdelimiter c
      rw [List.flatMap_cons, hwritten, List.append_assoc, List.cons_append, readQuoted?,
        if_neg hfirst, hread, ih]
      rfl

/-- Reads a quoted text, and gives what follows it. -/
def unquote? : Text → Option (Text × Text)
  | [] => none
  | c :: rest => if IsDelimiter c then readQuoted? c rest else none

theorem isDelimiter_quoteDelimiter (s : Text) : IsDelimiter (quoteDelimiter s) := by
  rw [quoteDelimiter]
  split
  · exact .inr rfl
  · exact .inl rfl

theorem quote_append (s rest : Text) :
    quote s ++ rest = quoteDelimiter s ::
      (s.flatMap (escapeChar (quoteDelimiter s)) ++ quoteDelimiter s :: rest) := by
  simp [quote]

/-- A quoted text is read back as it is, whatever follows it.  The delimiter is told from
the first character, as the quoting chose one of two. -/
theorem unquote?_quote (s rest : Text) : unquote? (quote s ++ rest) = some (s, rest) := by
  have hdelimiter := isDelimiter_quoteDelimiter s
  rw [quote_append, unquote?, if_pos hdelimiter, readQuoted?_flatMap hdelimiter]

end TextMode.Text
