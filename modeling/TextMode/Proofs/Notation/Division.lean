import Mathlib
import TextMode.Proofs.Notation.Failures
import TextMode.Proofs.Notation.Groups

/-!
# Text commands with their groups

A text command takes the group behind it, and nothing but trivia may stand between them.
The tokens of a text are divided accordingly in one way, and the elements of the text are
what its portions stand for, in the same order.
-/

namespace TextMode.Notation

/-- The first token that is not trivia opens a group. -/
def OpensGroup (tokens : List Token) : Prop :=
  (tokens.find? fun token => !token.isTrivia) = some .openBrace

instance (tokens : List Token) : Decidable (OpensGroup tokens) :=
  inferInstanceAs (Decidable (_ = _))

/-- The token is a text command, and a group follows it as soon as something other than
trivia does. -/
def TakesGroup (token : Token) (rest : List Token) : Prop :=
  (∃ command : TextCommand, token = .controlWord command.name) ∧ OpensGroup rest

/-- A token that takes nothing, or a text command with the trivia behind it and the tokens
inside its group. -/
inductive Portion where
  | lone (token : Token)
  | box (command : TextCommand) (gap body : List Token)

def Portion.tokens : Portion → List Token
  | lone token => [token]
  | box command gap body =>
      .controlWord command.name :: (gap ++ .openBrace :: (body ++ [.closeBrace]))

/-- The portions are those of the tokens. -/
inductive Divides : List Token → List Portion → Prop where
  | nil : Divides [] []
  | lone {token : Token} {rest : List Token} {portions : List Portion} :
      ¬ TakesGroup token rest → Divides rest portions →
      Divides (token :: rest) (.lone token :: portions)
  | box {command : TextCommand} {gap body rest : List Token} {portions : List Portion} :
      (∀ token ∈ gap, token.isTrivia) → IsNested body → Divides rest portions →
      Divides ((Portion.box command gap body).tokens ++ rest) (.box command gap body :: portions)

theorem opensGroup_append {gap : List Token} (hgap : ∀ token ∈ gap, token.isTrivia)
    (rest : List Token) : OpensGroup (gap ++ rest) ↔ OpensGroup rest := by
  have hnone : (gap.find? fun token => !token.isTrivia) = none := by
    simpa using hgap
  rw [OpensGroup, OpensGroup, List.find?_append, hnone, Option.none_or]

theorem takesGroup_of_box {command : TextCommand} {gap : List Token}
    (hgap : ∀ token ∈ gap, token.isTrivia) (rest : List Token) :
    TakesGroup (.controlWord command.name) (gap ++ .openBrace :: rest) :=
  ⟨⟨command, rfl⟩, (opensGroup_append hgap _).mpr rfl⟩

theorem not_takesGroup {token : Token}
    (htoken : ∀ command : TextCommand, token ≠ .controlWord command.name) (rest : List Token) :
    ¬ TakesGroup token rest := by
  rintro ⟨⟨command, hcommand⟩, -⟩
  exact htoken command hcommand

theorem not_takesGroup_of_not_opensGroup {rest : List Token} (hopens : ¬ OpensGroup rest)
    (token : Token) : ¬ TakesGroup token rest :=
  fun htakes => hopens htakes.2

/-- The group that a text command takes is the one behind the trivia.  Trivia holds no
brace, so the gap ends at the first open brace, and nested tokens end at the first closing
brace that they leave over. -/
theorem eq_of_box {left right leftBody rightBody leftRest rightRest : List Token}
    (hleft : ∀ token ∈ left, token.isTrivia) (hright : ∀ token ∈ right, token.isTrivia)
    (hleftBody : IsNested leftBody) (hrightBody : IsNested rightBody)
    (heq : left ++ .openBrace :: (leftBody ++ .closeBrace :: leftRest) =
      right ++ .openBrace :: (rightBody ++ .closeBrace :: rightRest)) :
    left = right ∧ leftBody = rightBody ∧ leftRest = rightRest := by
  have hspan : ∀ {gap behind : List Token}, (∀ token ∈ gap, token.isTrivia) →
      (gap ++ .openBrace :: behind).takeWhile Token.isTrivia = gap ∧
        (gap ++ .openBrace :: behind).dropWhile Token.isTrivia = .openBrace :: behind :=
    fun hgap => span_run hgap rfl
  obtain ⟨htake, hdrop⟩ := hspan hleft
  rw [heq, (hspan hright).1] at htake
  rw [heq, (hspan hright).2] at hdrop
  obtain ⟨leftItems, hleftItems⟩ := hleftBody
  obtain ⟨rightItems, hrightItems⟩ := hrightBody
  have hbody := hleftItems.eq_of_append_closeBrace hrightItems (List.cons.inj hdrop).2.symm
  exact ⟨htake.symm, hbody⟩

theorem Portion.tokens_box_append (command : TextCommand) (gap body rest : List Token) :
    (box command gap body).tokens ++ rest =
      .controlWord command.name :: (gap ++ .openBrace :: (body ++ .closeBrace :: rest)) := by
  simp [tokens]

namespace Divides

theorem flatMap_tokens {tokens : List Token} {portions : List Portion}
    (hdivides : Divides tokens portions) : portions.flatMap Portion.tokens = tokens := by
  induction hdivides with
  | nil => rfl
  | lone _ _ ih => rw [List.flatMap_cons, ih, Portion.tokens, List.singleton_append]
  | box _ _ _ ih => rw [List.flatMap_cons, ih]

/-- Tokens are divided in one way at most.  Whether a text command takes a group can be told
from the tokens behind it, and so can the group. -/
theorem unique {tokens : List Token} {left right : List Portion} (hleft : Divides tokens left)
    (hright : Divides tokens right) : left = right := by
  induction hleft generalizing right with
  | nil =>
      generalize htokens : ([] : List Token) = tokens at hright
      cases hright with
      | nil => rfl
      | lone _ _ => cases htokens
      | box _ _ _ => cases htokens
  | @lone token rest portions htakes _ ih =>
      generalize htokens : token :: rest = tokens at hright
      cases hright with
      | nil => cases htokens
      | lone _ hrest =>
          obtain ⟨rfl, rfl⟩ := List.cons.inj htokens
          rw [ih hrest]
      | box hgap _ _ =>
          rw [Portion.tokens_box_append] at htokens
          obtain ⟨rfl, rfl⟩ := List.cons.inj htokens
          exact absurd (takesGroup_of_box hgap _) htakes
  | @box command gap body rest portions hgap hbody _ ih =>
      generalize htokens : (Portion.box command gap body).tokens ++ rest = tokens at hright
      rw [Portion.tokens_box_append] at htokens
      cases hright with
      | nil => cases htokens
      | lone htakes _ =>
          obtain ⟨rfl, rfl⟩ := List.cons.inj htokens
          exact absurd (takesGroup_of_box hgap _) htakes
      | box hgap' hbody' hrest =>
          rw [Portion.tokens_box_append] at htokens
          obtain ⟨hname, htail⟩ := List.cons.inj htokens
          obtain rfl := Element.name_injective (Token.controlWord.inj hname)
          obtain ⟨rfl, rfl, rfl⟩ := eq_of_box hgap hgap' hbody hbody' htail
          rw [ih hrest]

/-- Without a group nothing is taken, so every token is a portion of its own. -/
theorem map_lone {tokens : List Token} (htokens : .openBrace ∉ tokens) :
    Divides tokens (tokens.map .lone) := by
  induction tokens with
  | nil => exact .nil
  | cons token tokens ih =>
      have htail : .openBrace ∉ tokens := fun hmem => htokens (List.mem_cons_of_mem _ hmem)
      refine .lone (not_takesGroup_of_not_opensGroup (fun hopens => htail ?_) _) (ih htail)
      exact List.mem_of_find?_eq_some hopens

end Divides

/-! ## What portions stand for -/

/-- The kind of the node that shows a token.  Blanks and comments are shown by none. -/
def Token.nodeKind : Token → String
  | controlWord _ | controlSymbol _ => "macro"
  | openBrace | closeBrace => "group"
  | special _ => "special"
  | _ => "text"

/-- What is read of a text at its own level: a token as a node shows it, or a text box. -/
inductive Entry where
  | lexeme (kind : String) (text : Text)
  | box (command : TextCommand) (body : Text)

def Portion.entries : Portion → List Entry
  | lone token => if token.isTrivia then [] else [.lexeme token.nodeKind token.lexeme]
  | box command _ body => [.box command (body.flatMap Token.lexeme)]

@[simp]
theorem Portion.entries_openBrace :
    (lone .openBrace).entries = [.lexeme "group" ['{']] :=
  rfl

@[simp]
theorem Portion.entries_closeBrace :
    (lone .closeBrace).entries = [.lexeme "group" ['}']] :=
  rfl

namespace Element

mutual

def entries : Element → List Entry
  | control name => [.lexeme "macro" ('\\' :: name)]
  | special char => [.lexeme "special" [char]]
  | characters run => [.lexeme "text" run]
  | group elements => .lexeme "group" ['{'] :: (allEntries elements ++ [.lexeme "group" ['}']])
  | textBox command body => [.box command body]

def allEntries : List Element → List Entry
  | [] => []
  | element :: elements => entries element ++ allEntries elements

end

end Element

theorem entries_lone {token : Token} (hsingle : token.IsSingle)
    (htrivia : token.isTrivia = false) :
    (Portion.lone token).entries = Element.allEntries (Element.ofToken token) := by
  rw [Portion.entries, if_neg (by simp [htrivia])]
  cases token with
  | openBrace | closeBrace | strayBackslash => exact hsingle.elim
  | blanks | comment => exact absurd htrivia (by simp [Token.isTrivia])
  | _ => rfl

namespace Groups

/-- Nested tokens that start with a group, trivia apart, are cut at that group.  A text
command that waits for it makes a text box of the tokens inside. -/
theorem exists_of_startsWithGroup {tokens : List Token} {items : List Item}
    (hgroups : Groups tokens items) (hstarts : Element.StartsWithGroup items) :
    ∃ gap body after others, tokens = gap ++ .openBrace :: (body ++ .closeBrace :: after) ∧
      (∀ token ∈ gap, token.isTrivia) ∧ IsNested body ∧ Groups after others ∧
      ∀ command, Element.ofItems (some command) items =
        .textBox command (body.flatMap Token.lexeme) :: Element.ofItems none others := by
  induction hgroups with
  | nil => exact hstarts.elim
  | single _ _ ih =>
      obtain ⟨htrivia, hstarts⟩ := hstarts
      obtain ⟨gap, body, after, others, rfl, hgap, hbody, hafter, hbox⟩ := ih hstarts
      refine ⟨_ :: gap, body, after, others, rfl, ?_, hbody, hafter, ?_⟩
      · exact List.forall_mem_cons.mpr ⟨htrivia, hgap⟩
      · intro command
        rw [Element.ofItems_trivia htrivia, hbox]
  | @group inner tokens members items hinner hafter _ _ =>
      refine ⟨[], inner, tokens, items, rfl, by simp, ⟨members, hinner⟩, hafter, ?_⟩
      intro command
      rw [Element.ofItems_box, hinner.lexemes]

theorem startsWithGroup_of_opensGroup {tokens rest : List Token} {items : List Item}
    (hgroups : Groups tokens items) (hrest : ¬ OpensGroup rest)
    (hopens : OpensGroup (tokens ++ rest)) : Element.StartsWithGroup items := by
  induction hgroups with
  | nil => exact absurd hopens hrest
  | @single token tokens items hsingle _ ih =>
      rw [OpensGroup, List.cons_append, List.find?_cons] at hopens
      cases htrivia : token.isTrivia with
      | true =>
          rw [htrivia] at hopens
          exact ⟨htrivia, ih hopens⟩
      | false =>
          rw [htrivia] at hopens
          obtain rfl := Option.some.inj hopens
          exact hsingle.elim
  | group _ _ _ _ => trivial

end Groups

/-- Before anything that opens no group, the tokens are divided into portions that stand for
the elements. -/
def StandsFor (tokens : List Token) (elements : List Element) : Prop :=
  ∀ (rest : List Token) (portions : List Portion), Divides rest portions →
    ¬ OpensGroup rest →
    ∃ inner, Divides (tokens ++ rest) (inner ++ portions) ∧
      inner.flatMap Portion.entries = Element.allEntries elements

theorem Element.allEntries_append (left right : List Element) :
    allEntries (left ++ right) = allEntries left ++ allEntries right := by
  induction left with
  | nil => rfl
  | cons element left ih => simp only [List.cons_append, allEntries, ih, List.append_assoc]

namespace StandsFor

theorem nil : StandsFor [] [] :=
  fun _ _ hrest _ => ⟨[], hrest, rfl⟩

/-- A token that takes no group is put before tokens that stand for elements.  What it
stands for comes before these elements. -/
theorem lone {token : Token} {tokens : List Token} (head : List Element)
    {elements : List Element} (htokens : StandsFor tokens elements)
    (htakes : ∀ rest : List Token, ¬ OpensGroup rest → ¬ TakesGroup token (tokens ++ rest))
    (hhead : (Portion.lone token).entries = Element.allEntries head) :
    StandsFor (token :: tokens) (head ++ elements) := by
  intro rest portions hrest hopen
  obtain ⟨inner, hdivides, hentries⟩ := htokens rest portions hrest hopen
  refine ⟨.lone token :: inner, .lone (htakes rest hopen) hdivides, ?_⟩
  rw [List.flatMap_cons, hhead, hentries, Element.allEntries_append]

theorem box (command : TextCommand) {gap body tokens : List Token} {elements : List Element}
    (hgap : ∀ token ∈ gap, token.isTrivia) (hbody : IsNested body)
    (htokens : StandsFor tokens elements) :
    StandsFor (.controlWord command.name :: (gap ++ .openBrace :: (body ++ .closeBrace :: tokens)))
      (.textBox command (body.flatMap Token.lexeme) :: elements) := by
  intro rest portions hrest hopen
  obtain ⟨inner, hdivides, hentries⟩ := htokens rest portions hrest hopen
  have hbox : Divides ((Portion.box command gap body).tokens ++ (tokens ++ rest))
      (.box command gap body :: (inner ++ portions)) := .box hgap hbody hdivides
  refine ⟨.box command gap body :: inner, ?_, ?_⟩
  · rw [Portion.tokens_box_append] at hbox
    simpa using hbox
  · rw [List.flatMap_cons, hentries, Element.allEntries, Portion.entries, Element.entries]

theorem group {inner tokens : List Token} {members elements : List Element}
    (hinner : StandsFor inner members) (htokens : StandsFor tokens elements) :
    StandsFor (.openBrace :: (inner ++ .closeBrace :: tokens)) (.group members :: elements) := by
  intro rest portions hrest hopen
  obtain ⟨behind, hbehind, hbehindEntries⟩ := htokens rest portions hrest hopen
  have hclose : Divides (.closeBrace :: (tokens ++ rest))
      (.lone .closeBrace :: (behind ++ portions)) := .lone (not_takesGroup (by simp) _) hbehind
  have hbrace : ¬ OpensGroup (.closeBrace :: (tokens ++ rest)) := by
    simp [OpensGroup, Token.isTrivia]
  obtain ⟨inside, hinside, hinsideEntries⟩ := hinner _ _ hclose hbrace
  have hall : Divides (.openBrace :: (inner ++ .closeBrace :: (tokens ++ rest)))
      (.lone .openBrace :: (inside ++ .lone .closeBrace :: (behind ++ portions))) :=
    .lone (not_takesGroup (by simp) _) hinside
  refine ⟨.lone .openBrace :: (inside ++ .lone .closeBrace :: behind), by simpa using hall, ?_⟩
  rw [List.flatMap_cons, List.flatMap_append, List.flatMap_cons, hinsideEntries, hbehindEntries,
    Element.allEntries, Element.entries]
  simp

end StandsFor

/-- Nested tokens stand for the elements of their items.  A text command takes a whole group
with it, so the induction is on the number of tokens. -/
theorem Groups.standsFor {tokens : List Token} {items : List Item}
    (hgroups : Groups tokens items) : StandsFor tokens (Element.ofItems none items) := by
  induction hlength : tokens.length using Nat.strong_induction_on
    generalizing tokens items with
  | _ length ih =>
    subst hlength
    cases hgroups with
    | nil => exact .nil
    | @single token tokens items hsingle htail =>
        have hstands : StandsFor tokens (Element.ofItems none items) :=
          ih tokens.length (Nat.lt_succ_self _) htail rfl
        obtain htrivia | ⟨command, rfl⟩ | ⟨htrivia, hname⟩ := Element.token_cases token
        · rw [Element.ofItems_trivia htrivia]
          refine hstands.lone [] (fun _ _ => not_takesGroup ?_ _) ?_
          · rintro command rfl
            exact Bool.false_ne_true htrivia
          · rw [Portion.entries, if_pos htrivia, Element.allEntries]
        · rw [Element.ofItems_command (Element.ofName?_name command)]
          by_cases hstarts : Element.StartsWithGroup items
          · obtain ⟨gap, body, after, others, rfl, hgap, hbody, hafter, hbox⟩ :=
              htail.exists_of_startsWithGroup hstarts
            have hlt : after.length < (Token.controlWord command.name ::
                (gap ++ .openBrace :: (body ++ .closeBrace :: after))).length := by
              simp only [List.length_cons, List.length_append]
              omega
            rw [hbox]
            exact .box command hgap hbody (ih after.length hlt hafter rfl)
          · rw [Element.ofItems_waiting command items hstarts]
            refine hstands.lone [.control command.name] ?_ rfl
            intro rest hrest
            refine not_takesGroup_of_not_opensGroup (fun hopens => hstarts ?_) _
            exact htail.startsWithGroup_of_opensGroup hrest hopens
        · rw [Element.ofItems_token htrivia hname]
          refine hstands.lone _ (fun _ _ => not_takesGroup ?_ _) ?_
          · rintro command rfl
            have hnone := hname command.name rfl
            simp [Element.ofName?_name] at hnone
          · exact entries_lone hsingle htrivia
    | @group inner tokens members items hinner htail =>
        have hlength : inner.length < (Token.openBrace :: (inner ++ .closeBrace :: tokens)).length ∧
            tokens.length < (Token.openBrace :: (inner ++ .closeBrace :: tokens)).length := by
          simp only [List.length_cons, List.length_append]
          omega
        rw [Element.ofItems_group]
        exact StandsFor.group (ih inner.length hlength.1 hinner rfl)
          (ih tokens.length hlength.2 htail rfl)

/-- The tokens of a text that is accepted are divided into portions that stand for its
elements.  Behind the last token there is nothing, which opens no group. -/
theorem exists_divides_of_read {text : Text} {items : List Item}
    (hread : Item.read text = .ok items) :
    ∃ portions, Divides (tokenize text) portions ∧
      portions.flatMap Portion.entries = Element.allEntries (Element.ofItems none items) := by
  have hstands : StandsFor (tokenize text) (Element.ofItems none items) :=
    (Item.read_eq_ok_iff.mp hread).standsFor
  obtain ⟨portions, hdivides, hentries⟩ := hstands [] [] .nil (by decide)
  rw [List.append_nil, List.append_nil] at hdivides
  exact ⟨portions, hdivides, hentries⟩

/-- Behind the tree of a text stand elements, and whatever tokens and portions the grammars
allow of the text, the portions stand for these elements.  Both grammars are unambiguous, so
the ones that the reader finds are the only ones. -/
theorem exists_divided {context : Context} {text : Text} {tree : Node}
    (hread : read context text = .ok tree) :
    ∃ elements nodes, Element.toNodes (build read none) context elements = .ok nodes ∧
      tree = .group "math" [] nodes ∧
      (∃ tokens portions, Lexes text tokens ∧ Divides tokens portions) ∧
      ∀ tokens portions, Lexes text tokens → Divides tokens portions →
        portions.flatMap Portion.entries = Element.allEntries elements := by
  rw [read_eq_readLevel] at hread
  obtain ⟨items, nodes, hitems, hnodes, rfl⟩ := exists_of_readLevel hread
  obtain ⟨expected, hexpected, hentries⟩ := exists_divides_of_read hitems
  refine ⟨_, nodes, hnodes, rfl, ⟨_, expected, lexes_tokenize text, hexpected⟩, ?_⟩
  intro tokens portions hlexes hdivides
  obtain rfl := lexes_iff.mp hlexes
  obtain rfl := hdivides.unique hexpected
  exact hentries

end TextMode.Notation
