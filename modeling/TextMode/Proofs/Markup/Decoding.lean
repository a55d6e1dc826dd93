import Mathlib
import TextMode.Markup.SExpression
import TextMode.Proofs.Markup.Naming
import TextMode.Proofs.Text.Quoting
import TextMode.Proofs.Text.Runs

/-!
# Reading S-expressions

The parts of an S-expression stand behind a space each, and the character behind that
space tells them apart: a setting starts with a name, the text with a quote and a child
with a parenthesis.  Each part shows where it ends, so S-expressions can be read back,
and no two trees share one.
-/

namespace TextMode

open TextMode.Notation

/-! ## Words -/

/-- A name or another word in front of `rest` ends there. -/
def EndsWord (rest : Text) : Prop :=
  rest.head?.all fun c => !isNameChar c

def readWord (source : Text) : Text × Text :=
  (source.takeWhile isNameChar, source.dropWhile isNameChar)

/-- A word is read up to the first character that belongs to no name. -/
theorem readWord_append {word rest : Text} (hword : word.all isNameChar)
    (hrest : EndsWord rest) : readWord (word ++ rest) = (word, rest) := by
  obtain ⟨htake, hdrop⟩ := span_run (List.all_eq_true.mp hword) hrest
  rw [readWord, htake, hdrop]

theorem isNameChar_of_isDigit {c : Char} (hc : c.isDigit) : isNameChar c := by
  have hmark : c ∉ ['(', ')', '\'', '"', '='] := by
    intro hmem
    have hnone : ['(', ')', '\'', '"', '='].all fun d => !d.isDigit := by decide
    have hdigit := List.all_eq_true.mp hnone c hmem
    rw [hc] at hdigit
    exact Bool.false_ne_true hdigit
  rw [isNameChar, Text.isBlank_eq_false_of_isDigit hc, decide_eq_true hmark]
  rfl

theorem all_isNameChar_signedDecimal (n : Int) : (Text.signedDecimal n).all isNameChar := by
  rw [List.all_eq_true]
  intro c hc
  rcases Text.sign_or_isDigit_of_mem_signedDecimal hc with rfl | hdigit
  · decide
  · exact isNameChar_of_isDigit hdigit

/-- No name starts with a delimiter of quoted text.  So words and quoted texts are told
apart by their first character. -/
theorem not_isDelimiter_of_isNameChar {c : Char} (hc : isNameChar c) :
    ¬ Text.IsDelimiter c := by
  rintro (rfl | rfl)
  · exact absurd hc (by decide)
  · exact absurd hc (by decide)

namespace AttributeValue

/-- The value that is written as a word. -/
def ofWord (word : Text) : AttributeValue :=
  if word = "True".toList then flag true
  else if word = "False".toList then flag false
  else if word = "None".toList then absent
  else number (Text.ofSignedDecimal word)

def read? (source : Text) : Option (AttributeValue × Text) :=
  if source.head?.any Text.IsDelimiter then
    (Text.unquote? source).map fun parts => (text parts.1, parts.2)
  else
    some (ofWord (readWord source).1, (readWord source).2)

theorem read?_word {word rest : Text} (hne : word ≠ []) (hword : word.all isNameChar)
    (hrest : EndsWord rest) : read? (word ++ rest) = some (ofWord word, rest) := by
  have hhead : ¬ (word ++ rest).head?.any Text.IsDelimiter := by
    cases word with
    | nil => exact absurd rfl hne
    | cons c word =>
        rw [List.all_cons, Bool.and_eq_true] at hword
        simpa using not_isDelimiter_of_isNameChar hword.1
  rw [read?, if_neg hhead, readWord_append hword hrest]

/-- The words of truth values and of the absent value start with a letter.  A number starts
with a digit or a minus and is taken for none of them. -/
theorem ofWord_signedDecimal (n : Int) : ofWord (Text.signedDecimal n) = number n := by
  have hletter : ∀ (c : Char) (others : Text), ¬ (c = '-' ∨ c.isDigit) →
      Text.signedDecimal n ≠ c :: others := by
    intro c others hc hword
    have hmem : c ∈ Text.signedDecimal n := by
      rw [hword]
      exact List.mem_cons_self
    exact hc (Text.sign_or_isDigit_of_mem_signedDecimal hmem)
  rw [ofWord, if_neg, if_neg, if_neg, Text.ofSignedDecimal_signedDecimal]
  · exact hletter 'N' _ (by decide)
  · exact hletter 'F' _ (by decide)
  · exact hletter 'T' _ (by decide)

/-- A value is read back in front of anything that ends a word.  A quoted text ends at its
delimiter, and a word at a blank or a parenthesis. -/
theorem read?_written (value : AttributeValue) {rest : Text} (hrest : EndsWord rest) :
    read? (value.written ++ rest) = some (value, rest) := by
  cases value with
  | text content =>
      have hhead : (Text.quote content ++ rest).head?.any Text.IsDelimiter := by
        rw [Text.quote_append]
        simpa using Text.isDelimiter_quoteDelimiter content
      rw [written, read?, if_pos hhead, Text.unquote?_quote]
      rfl
  | flag value =>
      cases value with
      | false => rw [written, read?_word (by decide +kernel) (by decide +kernel) hrest]; rfl
      | true => rw [written, read?_word (by decide +kernel) (by decide +kernel) hrest]; rfl
  | absent => rw [written, read?_word (by decide +kernel) (by decide +kernel) hrest]; rfl
  | number n =>
      rw [written, read?_word ?_ (all_isNameChar_signedDecimal n) hrest, ofWord_signedDecimal]
      cases n with
      | ofNat n => exact Nat.toDigits_ne_nil
      | negSucc n => exact List.cons_ne_nil _ _

end AttributeValue

/-! ## Parts -/

namespace Node

/-- The parts behind one space each. -/
def spread (parts : List Text) : Text :=
  parts.flatMap fun part => ' ' :: part

/-- The first character of the part that comes next. -/
def nextPart? : Text → Option Char
  | ' ' :: c :: _ => some c
  | _ => none

theorem spread_cons (part : Text) (parts : List Text) :
    spread (part :: parts) = ' ' :: (part ++ spread parts) :=
  rfl

theorem spread_append (parts others : List Text) :
    spread (parts ++ others) = spread parts ++ spread others :=
  List.flatMap_append

theorem intercalate_cons_eq_spread (first : Text) (parts : List Text) :
    [' '].intercalate (first :: parts) = first ++ spread parts := by
  induction parts generalizing first with
  | nil => rw [List.intercalate_singleton, spread, List.flatMap_nil, List.append_nil]
  | cons part parts ih =>
      rw [List.intercalate_cons_cons, ih, List.append_assoc]
      rfl

/-- A node is written as its parts, each with a space in front but for the kind.  This form
of the text is what the reader follows. -/
theorem sexpr_mk (kind : String) (attributes : Attributes) (text : Option Text)
    (children : List Node) :
    sexpr (mk kind attributes text children) =
      '(' :: (kind.toList ++ (spread (attributes.map writtenSetting) ++
        (spread (text.map Text.quote).toList ++ (spread (sexprs children) ++ [')'])))) := by
  simp only [sexpr, head, List.cons_append, List.append_assoc, intercalate_cons_eq_spread,
    spread_append]

/-- Parts start with a space, so a word ends in front of them, and without parts it ends in
front of what follows. -/
theorem endsWord_spread (parts : List Text) {rest : Text} (hrest : EndsWord rest) :
    EndsWord (spread parts ++ rest) := by
  cases parts with
  | nil => exact hrest
  | cons part parts => rfl

theorem length_le_length_spread (parts : List Text) : parts.length ≤ (spread parts).length := by
  induction parts with
  | nil => exact Nat.zero_le _
  | cons part parts ih =>
      simp only [spread_cons, List.length_cons, List.length_append]
      omega

/-! ## Trees -/

def readSettings? : Nat → Text → Option (Attributes × Text)
  | 0, source => some ([], source)
  | fuel + 1, source =>
      if (nextPart? source).any isNameChar then do
        let (name, rest) := readWord (source.drop 1)
        let (value, rest) ← AttributeValue.read? (rest.drop 1)
        let (settings, rest) ← readSettings? fuel rest
        return ((String.ofList name, value) :: settings, rest)
      else some ([], source)

def readText? (source : Text) : Option (Option Text × Text) :=
  if (nextPart? source).any Text.IsDelimiter then do
    let (text, rest) ← Text.unquote? (source.drop 1)
    return (some text, rest)
  else some (none, source)

mutual

/-- Reads an S-expression.  The length of the text is fuel enough. -/
def read? : Nat → Text → Option (Node × Text)
  | fuel + 1, '(' :: source => do
      let (kind, rest) := readWord source
      let (attributes, rest) ← readSettings? fuel rest
      let (text, rest) ← readText? rest
      let (children, rest) ← readAll? fuel rest
      return (mk (String.ofList kind) attributes text children, rest.drop 1)
  | _, _ => none

def readAll? : Nat → Text → Option (List Node × Text)
  | 0, source => some ([], source)
  | fuel + 1, source =>
      if nextPart? source = some '(' then do
        let (node, rest) ← read? fuel (source.drop 1)
        let (nodes, rest) ← readAll? fuel rest
        return (node :: nodes, rest)
      else some ([], source)

end

def ofSexpr? (source : Text) : Option Node := do
  let (node, rest) ← read? source.length source
  if rest = [] then some node else none

/-- No attribute is read where the next part does not start with a character of a name.
Quoted texts and nodes do not. -/
theorem readSettings?_of_nextPart? {source : Text}
    (hnext : ¬ (nextPart? source).any isNameChar) (fuel : Nat) :
    readSettings? fuel source = some ([], source) := by
  cases fuel with
  | zero => rfl
  | succ fuel => rw [readSettings?, if_neg hnext]

/-- One attribute is read with its name, the equals sign and its value, and then the
others. -/
theorem readSettings?_setting {name : String} (hname : IsName name) (value : AttributeValue)
    {tail rest : Text} (htail : EndsWord tail) {fuel : Nat} {settings : Attributes}
    (hsettings : readSettings? fuel tail = some (settings, rest)) :
    readSettings? (fuel + 1) (' ' :: (writtenSetting (name, value) ++ tail)) =
      some ((name, value) :: settings, rest) := by
  obtain ⟨hne, hall⟩ := hname
  have hwritten : writtenSetting (name, value) ++ tail =
      name.toList ++ '=' :: (value.written ++ tail) :=
    List.append_assoc ..
  have hword : readWord (name.toList ++ '=' :: (value.written ++ tail)) =
      (name.toList, '=' :: (value.written ++ tail)) :=
    readWord_append hall rfl
  have hvalue := AttributeValue.read?_written value htail
  have hnext : (nextPart? (' ' :: (name.toList ++ '=' :: (value.written ++ tail)))).any
      isNameChar := by
    cases hchars : name.toList with
    | nil => exact absurd hchars hne
    | cons c others =>
        rw [hchars, List.all_cons, Bool.and_eq_true] at hall
        exact hall.1
  rw [hwritten, readSettings?, if_pos hnext, List.drop_succ_cons, List.drop_zero, hword]
  simp only [List.drop_succ_cons, List.drop_zero, hvalue, Option.bind_eq_bind, Option.bind_some,
    hsettings, String.ofList_toList]
  rfl

/-- All attributes of a node are read back, in order.  Their number is all the fuel that it
takes. -/
theorem readSettings?_written {attributes : Attributes} (hnamed : AreNamed attributes)
    {rest : Text} (hends : EndsWord rest) (hnext : ¬ (nextPart? rest).any isNameChar)
    {fuel : Nat} (hfuel : attributes.length ≤ fuel) :
    readSettings? fuel (spread (attributes.map writtenSetting) ++ rest) =
      some (attributes, rest) := by
  induction attributes generalizing fuel with
  | nil => exact readSettings?_of_nextPart? hnext fuel
  | cons setting attributes ih =>
      obtain ⟨hname, hnames⟩ := List.forall_mem_cons.mp hnamed
      cases fuel with
      | zero => exact absurd hfuel (Nat.not_succ_le_zero _)
      | succ fuel =>
          have hsettings := ih hnames (Nat.le_of_succ_le_succ hfuel)
          have htail := endsWord_spread (attributes.map writtenSetting) hends
          rw [List.map_cons, spread_cons, List.cons_append, List.append_assoc]
          exact readSettings?_setting hname setting.2 htail hsettings

/-- The text of a node is read back.  A node without one is told by the next part, which
starts with no delimiter. -/
theorem readText?_written (text : Option Text) {rest : Text}
    (hnext : ¬ (nextPart? rest).any Text.IsDelimiter) :
    readText? (spread (text.map Text.quote).toList ++ rest) = some (text, rest) := by
  cases text with
  | none => exact if_neg hnext
  | some content =>
      have hwritten : spread ((some content).map Text.quote).toList ++ rest =
          ' ' :: (Text.quote content ++ rest) := by
        simp [spread]
      have hhead : (nextPart? (' ' :: (Text.quote content ++ rest))).any Text.IsDelimiter := by
        rw [Text.quote_append]
        simpa [nextPart?] using Text.isDelimiter_quoteDelimiter content
      rw [hwritten, readText?, if_pos hhead, List.drop_succ_cons, List.drop_zero,
        Text.unquote?_quote]
      rfl

/-- Behind the text of a node there are only children, and each of these starts with a
parenthesis. -/
theorem nextPart?_children (children : List Node) (rest : Text) :
    ∀ c ∈ nextPart? (spread (sexprs children) ++ ')' :: rest), c = '(' := by
  cases children with
  | nil => rintro c ⟨⟩
  | cons node nodes =>
      obtain ⟨kind, attributes, text, children⟩ := node
      rintro c ⟨⟩
      rfl

theorem nextPart?_text (text : Option Text) {rest : Text}
    (hrest : ∀ c ∈ nextPart? rest, c = '(') :
    ∀ c ∈ nextPart? (spread (text.map Text.quote).toList ++ rest),
      c = '(' ∨ Text.IsDelimiter c := by
  cases text with
  | none => exact fun c hc => .inl (hrest c hc)
  | some content =>
      rintro c ⟨⟩
      exact .inr (Text.isDelimiter_quoteDelimiter content)

theorem not_any_nextPart? {source : Text} {accepts : Char → Bool} {property : Char → Prop}
    (hnext : ∀ c ∈ nextPart? source, property c)
    (hproperty : ∀ c, property c → ¬ accepts c) :
    ¬ (nextPart? source).any accepts := by
  rw [Option.any_eq_true]
  rintro ⟨c, hc, haccepts⟩
  exact hproperty c (hnext c hc) haccepts

/-- A node is read back if its children are.  The kind is a word, the attributes are told by
their names, and the text is quoted. -/
theorem read?_mk {kind : String} {attributes : Attributes} (hkind : IsName kind)
    (hattributes : AreNamed attributes) (text : Option Text) {children : List Node} {rest : Text}
    {fuel : Nat} (hfuel : attributes.length ≤ fuel)
    (hchildren : readAll? fuel (spread (sexprs children) ++ ')' :: rest) =
      some (children, ')' :: rest)) :
    read? (fuel + 1) (sexpr (mk kind attributes text children) ++ rest) =
      some (mk kind attributes text children, rest) := by
  have hnextChild := nextPart?_children children rest
  have hnextText := nextPart?_text text hnextChild
  have hnoText : ¬ (nextPart? (spread (sexprs children) ++ ')' :: rest)).any
      Text.IsDelimiter := by
    apply not_any_nextPart? hnextChild
    rintro _ rfl
    decide
  have hnoSetting : ¬ (nextPart? (spread (text.map Text.quote).toList ++
      (spread (sexprs children) ++ ')' :: rest))).any isNameChar := by
    apply not_any_nextPart? hnextText
    rintro c (rfl | hdelimiter) hname
    · exact absurd hname (by decide)
    · exact not_isDelimiter_of_isNameChar hname hdelimiter
  have hchildrenEnd : EndsWord (spread (sexprs children) ++ ')' :: rest) :=
    endsWord_spread (sexprs children) rfl
  have htextEnd := endsWord_spread (text.map Text.quote).toList hchildrenEnd
  have hword := readWord_append hkind.2 (endsWord_spread (attributes.map writtenSetting) htextEnd)
  have hsettings := readSettings?_written hattributes htextEnd hnoSetting hfuel
  have htext := readText?_written text hnoText
  rw [sexpr_mk]
  simp only [List.cons_append, List.append_assoc, List.nil_append, read?, hword, hsettings, htext,
    hchildren, Option.bind_eq_bind, Option.bind_some, String.ofList_toList]
  rfl

mutual

/-- A node is read back in front of anything.  The induction is on trees and lists of trees,
and the length of the text is fuel enough. -/
theorem read?_sexpr : ∀ node : Node, node.WellNamed → ∀ (rest : Text) {fuel : Nat},
    (sexpr node).length ≤ fuel → read? fuel (sexpr node ++ rest) = some (node, rest)
  | mk kind attributes text children => by
      intro hnode rest fuel hfuel
      obtain ⟨hkind, hattributes, hchildren⟩ := hnode
      have hsettings := length_le_length_spread (attributes.map writtenSetting)
      simp only [sexpr_mk, List.length_cons, List.length_append, List.length_map] at hfuel hsettings
      cases fuel with
      | zero => omega
      | succ fuel =>
          apply read?_mk hkind hattributes text (by omega)
          exact readAll?_sexprs children hchildren rest (by omega)

theorem readAll?_sexprs : ∀ nodes : List Node, AllWellNamed nodes →
    ∀ (rest : Text) {fuel : Nat}, (spread (sexprs nodes)).length ≤ fuel →
    readAll? fuel (spread (sexprs nodes) ++ ')' :: rest) = some (nodes, ')' :: rest)
  | [] => by
      intro _ rest fuel _
      cases fuel <;> rfl
  | node :: nodes => by
      intro hnamed rest fuel hfuel
      obtain ⟨hnode, hnodes⟩ := hnamed
      simp only [sexprs, spread_cons, List.length_cons, List.length_append] at hfuel
      cases fuel with
      | zero => omega
      | succ fuel =>
          have hnext : nextPart? (spread (sexprs (node :: nodes)) ++ ')' :: rest) = some '(' := by
            cases node
            rfl
          have hhead : read? fuel (sexpr node ++ (spread (sexprs nodes) ++ ')' :: rest)) =
              some (node, spread (sexprs nodes) ++ ')' :: rest) :=
            read?_sexpr node hnode _ (by omega)
          have htail : readAll? fuel (spread (sexprs nodes) ++ ')' :: rest) =
              some (nodes, ')' :: rest) :=
            readAll?_sexprs nodes hnodes rest (by omega)
          rw [readAll?, if_pos hnext]
          simp only [sexprs, spread_cons, List.cons_append, List.append_assoc, List.drop_succ_cons,
            List.drop_zero, hhead, htail, Option.bind_eq_bind, Option.bind_some]
          rfl

end

/-- The S-expression of a node is read back as the node, and nothing is left behind it. -/
theorem ofSexpr?_sexpr {node : Node} (hnode : node.WellNamed) :
    ofSexpr? (sexpr node) = some node := by
  have hread := read?_sexpr node hnode [] (Nat.le_refl _)
  rw [List.append_nil] at hread
  rw [ofSexpr?, hread]
  rfl

end Node

open Node

/-- An S-expression is read back as the tree that it was written for, so two trees never
share one.  The trees that are read of islands, and those built around the trees of any
reader of islands, are among them. -/
theorem sexpr_faithful :
    (∀ node : Node, node.WellNamed → ofSexpr? node.sexpr = some node) ∧
    (∀ node other : Node, node.WellNamed → other.WellNamed → node.sexpr = other.sexpr →
      node = other) ∧
    (∀ context source tree, read context source = .ok tree → tree.WellNamed) ∧
    (∀ reader, NamesWell reader → ∀ level context text nodes,
      build reader level context text = .ok nodes → AllWellNamed nodes) := by
  refine ⟨fun node => ofSexpr?_sexpr, ?_, namesWell_read, fun reader => build_ensures_wellNamed⟩
  intro node other hnode hother hsexpr
  have hread : some node = some other := by
    rw [← ofSexpr?_sexpr hnode, hsexpr, ofSexpr?_sexpr hother]
  exact Option.some.inj hread

def labelledRow (children : List Node) : Node :=
  .group "row" [("width", .number (-3)), ("label", .text "(x) y=\"".toList)] children

/-- The text of the one leaf reads like the end of a leaf and the start of another. -/
def forgedRow : Node :=
  labelledRow [.leaf "leaf" [] "') (leaf '".toList]

def honestRow : Node :=
  labelledRow [.leaf "leaf" [] [], .leaf "leaf" [] []]

/-- The text of a leaf that reads like the end of a leaf and the start of another stays one
text, since it is quoted.  The row is written otherwise than the one with two leaves. -/
theorem sexpr_faithful_forgedRow :
    ofSexpr? forgedRow.sexpr = some forgedRow ∧ forgedRow.sexpr ≠ honestRow.sexpr := by
  have hforged : forgedRow.WellNamed := by decide +kernel
  have hhonest : honestRow.WellNamed := by decide +kernel
  refine ⟨sexpr_faithful.1 _ hforged, ?_⟩
  intro hsexpr
  have heq := sexpr_faithful.2.1 _ _ hforged hhonest hsexpr
  simp [forgedRow, honestRow, labelledRow, group] at heq

end TextMode
