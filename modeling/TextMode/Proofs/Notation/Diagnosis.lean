import Mathlib
import TextMode.Proofs.Notation.Failures
import TextMode.Proofs.Notation.Lexing

/-!
# The first event decides

Three things can go wrong while the tokens of a text are read from the left: a closing
brace comes while none is open, a backslash has nothing to take, or the tokens end while a
brace is open.  Whatever comes first is reported, and a text in which nothing goes wrong
is accepted at its own level.
-/

namespace TextMode.Notation

/-- What goes wrong behind the tokens `before` if `next?` comes there, with the key and the
parameters that report it. -/
inductive GoesWrong (before : List Token) : Option Token → Text → List Text → Prop where
  | extraCloseBrace : before.count .openBrace ≤ before.count .closeBrace →
      GoesWrong before (some .closeBrace) "ExtraCloseBrace".toList []
  | strayBackslash :
      GoesWrong before (some .strayBackslash) "UnexpectedInput".toList
        [Text.decimal (before.flatMap Token.lexeme).length]
  | missingCloseBrace : before.count .closeBrace < before.count .openBrace →
      GoesWrong before none "MissingCloseBrace".toList []

/-- Something goes wrong at a position, be it the one behind the last token. -/
def EventAt (tokens : List Token) (position : Nat) (key : Text) (params : List Text) : Prop :=
  GoesWrong (tokens.take position) tokens[position]? key params

def IsQuiet (tokens : List Token) (position : Nat) : Prop :=
  ∀ key params, ¬ EventAt tokens position key params

/-- The first event from the left. -/
def FirstEvent (tokens : List Token) (key : Text) (params : List Text) : Prop :=
  ∃ position, EventAt tokens position key params ∧ ∀ earlier < position, IsQuiet tokens earlier

theorem GoesWrong.unique {before : List Token} {next? : Option Token} {key key' : Text}
    {params params' : List Text} (hevent : GoesWrong before next? key params)
    (hother : GoesWrong before next? key' params') : key = key' ∧ params = params' := by
  cases hevent <;> cases hother <;> exact ⟨rfl, rfl⟩

/-- There is one first event at most, so the key and the parameters under which a text is
reported are determined by its tokens. -/
theorem FirstEvent.unique {tokens : List Token} {key key' : Text} {params params' : List Text}
    (hfirst : FirstEvent tokens key params) (hother : FirstEvent tokens key' params') :
    key = key' ∧ params = params' := by
  obtain ⟨position, hevent, hquiet⟩ := hfirst
  obtain ⟨position', hevent', hquiet'⟩ := hother
  obtain hlt | rfl | hgt := lt_trichotomy position position'
  · exact absurd hevent (hquiet' position hlt key params)
  · exact hevent.unique hevent'
  · exact absurd hevent' (hquiet position' hgt key' params')

theorem eventAt_append {before rest : List Token} {key : Text} {params : List Text} :
    EventAt (before ++ rest) before.length key params ↔
      GoesWrong before rest.head? key params := by
  simp [EventAt, List.getElem?_append_right, List.head?_eq_getElem?]

/-- A token at which nothing can go wrong: it is no stray backslash, and if it closes a
brace then there is one to close. -/
theorem isQuiet_append {before rest : List Token} {token : Token}
    (hstray : token ≠ .strayBackslash)
    (hclose : token = .closeBrace → before.count .closeBrace < before.count .openBrace) :
    IsQuiet (before ++ token :: rest) before.length := by
  intro key params hevent
  cases eventAt_append.mp hevent with
  | extraCloseBrace hcount => exact absurd (hclose rfl) (Nat.not_lt.mpr hcount)
  | strayBackslash => exact hstray rfl

theorem isQuiet_of_lt_concat {before rest : List Token} {token : Token}
    (hbefore : ∀ position < before.length, IsQuiet (before ++ token :: rest) position)
    (htoken : IsQuiet (before ++ token :: rest) before.length) :
    ∀ position < (before ++ [token]).length, IsQuiet ((before ++ [token]) ++ rest) position := by
  intro position hlt
  rw [List.append_assoc, List.singleton_append]
  rw [List.length_append, List.length_singleton] at hlt
  obtain hlt | rfl := Nat.lt_succ_iff_lt_or_eq.mp hlt
  · exact hbefore position hlt
  · exact htoken

/-! ## Lexed tokens -/

theorem Lexes.of_append {text : Text} {left right : List Token}
    (hlexes : Lexes text (left ++ right)) :
    ∃ rest, text = left.flatMap Token.lexeme ++ rest ∧ Lexes rest right := by
  induction left generalizing text with
  | nil => exact ⟨text, rfl, hlexes⟩
  | cons token left ih =>
      cases hlexes with
      | cons _ _ htail =>
          obtain ⟨rest, rfl, hrest⟩ := ih htail
          exact ⟨rest, by rw [List.flatMap_cons, List.append_assoc], hrest⟩

/-- A stray backslash is the last character of its text.  The tokens before it spell all of
the text but this one character. -/
theorem Lexes.text_of_strayBackslash {text : Text} {before after : List Token}
    (hlexes : Lexes text (before ++ .strayBackslash :: after)) :
    text = before.flatMap Token.lexeme ++ ['\\'] := by
  obtain ⟨rest, rfl, hrest⟩ := hlexes.of_append
  cases hrest with
  | cons _ hends _ =>
      obtain rfl := hends
      rfl

/-! ## Nesting finds the first event -/

theorem firstEvent_of_goesWrong {before rest : List Token} {key : Text} {params : List Text}
    (hquiet : ∀ position < before.length, IsQuiet (before ++ rest) position)
    (hevent : GoesWrong before rest.head? key params) : FirstEvent (before ++ rest) key params :=
  ⟨before.length, eventAt_append.mpr hevent, hquiet⟩

theorem isQuiet_of_balanced {tokens : List Token}
    (hcount : tokens.count .openBrace = tokens.count .closeBrace)
    (hquiet : ∀ position < tokens.length, IsQuiet tokens position) (position : Nat) :
    IsQuiet tokens position := by
  obtain hlt | hle := Nat.lt_or_ge position tokens.length
  · exact hquiet position hlt
  · intro key params hevent
    rw [EventAt, List.take_of_length_le hle, List.getElem?_eq_none hle] at hevent
    cases hevent with
    | missingCloseBrace hopen => omega

/-- The outcome of nesting tokens reports the first event, if there is one. -/
def Diagnoses (text : Text) (tokens : List Token) : Except Fault (List Item) → Prop
  | .error fault => FirstEvent tokens (fault.report text).key (fault.report text).params
  | .ok _ => ∀ position, IsQuiet tokens position

/-- With as many braces open as there are groups on the stack and nothing wrong so far,
nesting the rest finds the first event.  The induction is on the rest: a token either goes
wrong and is the first event, or joins the quiet tokens before it. -/
theorem diagnoses_nest {text : Text} {outer : List (List Item)} {inner : List Item}
    {before rest : List Token} (hlexes : Lexes text (before ++ rest))
    (hcount : before.count .openBrace = before.count .closeBrace + outer.length)
    (hquiet : ∀ position < before.length, IsQuiet (before ++ rest) position) :
    Diagnoses text (before ++ rest) (Item.nest outer inner rest) := by
  fun_induction Item.nest outer inner rest generalizing before with
  | case1 inner =>
      rw [List.append_nil] at hquiet ⊢
      exact isQuiet_of_balanced hcount hquiet
  | case2 inner last outer =>
      rw [List.length_cons] at hcount
      exact firstEvent_of_goesWrong hquiet (.missingCloseBrace (by omega))
  | case3 outer inner rest ih =>
      have hnext := isQuiet_of_lt_concat hquiet (isQuiet_append (by simp) (by simp))
      rw [List.append_cons] at hlexes ⊢
      apply ih hlexes _ hnext
      simp only [List.count_append, List.length_cons]
      simp
      omega
  | case4 inner rest =>
      exact firstEvent_of_goesWrong hquiet (.extraCloseBrace hcount.le)
  | case5 inner rest last outer ih =>
      rw [List.length_cons] at hcount
      have hclose : before.count .closeBrace < before.count .openBrace := by omega
      have hnext := isQuiet_of_lt_concat hquiet (isQuiet_append (by simp) fun _ => hclose)
      rw [List.append_cons] at hlexes ⊢
      apply ih hlexes _ hnext
      simp only [List.count_append]
      simp
      omega
  | case6 outer inner rest =>
      have htext := hlexes.text_of_strayBackslash
      have hposition : text.length - 1 = (before.flatMap Token.lexeme).length := by
        rw [htext, List.length_append]
        rfl
      have hevent := firstEvent_of_goesWrong hquiet .strayBackslash
      rw [← hposition] at hevent
      exact hevent
  | case7 outer inner token rest hopen hclose hstray ih =>
      have hnext := isQuiet_of_lt_concat hquiet (isQuiet_append hstray fun heq => absurd heq hclose)
      rw [List.append_cons] at hlexes ⊢
      apply ih hlexes _ hnext
      have hopen' : token ≠ .openBrace := hopen
      have hclose' : token ≠ .closeBrace := hclose
      simp only [List.count_append, List.count_singleton]
      simp [hopen', hclose', hcount]

/-- The reader of items reports the first event.  It starts with an empty stack, and no
token stands before it. -/
theorem diagnoses_read {text : Text} {tokens : List Token} (hlexes : Lexes text tokens) :
    Diagnoses text tokens (Item.read text) := by
  have hquiet : ∀ position < ([] : List Token).length, IsQuiet ([] ++ tokens) position :=
    fun position hlt => absurd hlt (Nat.not_lt_zero position)
  rw [Item.read, lexes_iff.mp hlexes]
  exact diagnoses_nest hlexes rfl hquiet

/-- A backslash is reported with its index, which is that of the last character.  So the
text ends with a backslash whenever something unexpected is reported. -/
theorem position_of_firstEvent {text : Text} {tokens : List Token} {params : List Text}
    (hlexes : Lexes text tokens) (hfirst : FirstEvent tokens "UnexpectedInput".toList params) :
    text.getLast? = some '\\' ∧ params = [Text.decimal (text.length - 1)] := by
  obtain ⟨position, hevent, -⟩ := hfirst
  rw [EventAt, ← List.head?_drop] at hevent
  rw [← List.take_append_drop position tokens] at hlexes
  generalize hkey : "UnexpectedInput".toList = key at hevent
  generalize hnext : (tokens.drop position).head? = next? at hevent
  cases hevent with
  | extraCloseBrace => exact absurd hkey (by decide)
  | strayBackslash =>
      obtain ⟨after, hafter⟩ := List.head?_eq_some_iff.mp hnext
      rw [hafter] at hlexes
      rw [hlexes.text_of_strayBackslash]
      simp
  | missingCloseBrace => exact absurd hkey (by decide)

/-- The first event from the left decides whether a text is accepted at its own level.

A text is read as the tokens of the grammar in one way.  If something goes wrong among
them, the first event is reported under its key and with its parameters, whatever the text
boxes hold.  If nothing does, the text is accepted: only a text box can still fail.  The
parameter of a stray backslash is its index, which is that of the last character. -/
theorem first_event_decides (text : Text) :
    ∃ tokens, Lexes text tokens ∧ (∀ other, Lexes text other → other = tokens) ∧
      (∀ key params, FirstEvent tokens key params →
        ∃ error : TexError, error.kind = .malformedNotation ∧ error.key = key ∧
          error.params = params ∧ (∀ context, read context text = .error error) ∧
          ∀ opener context, readLevel opener context text = .error error) ∧
      ((∀ key params, ¬ FirstEvent tokens key params) →
        ∃ items, Item.read text = .ok items ∧
          (∀ context, SettledBy (read context text)
            (Element.openBox (build read none) context)
            (Element.allBoxes (Element.ofItems none items))) ∧
          ∀ opener context, SettledBy (readLevel opener context text)
            (Element.openBox opener context)
            (Element.allBoxes (Element.ofItems none items))) ∧
      (∀ params, FirstEvent tokens "UnexpectedInput".toList params →
        text.getLast? = some '\\' ∧ params = [Text.decimal (text.length - 1)]) := by
  have hlexes := lexes_tokenize text
  have hdiagnoses := diagnoses_read hlexes
  refine ⟨tokenize text, hlexes, fun other hother => hother.unique hlexes, ?_, ?_,
    fun params hfirst => position_of_firstEvent hlexes hfirst⟩
  · intro key params hfirst
    cases hitems : Item.read text with
    | ok items =>
        rw [hitems] at hdiagnoses
        obtain ⟨position, hevent, -⟩ := hfirst
        exact absurd hevent (hdiagnoses position key params)
    | error fault =>
        rw [hitems] at hdiagnoses
        obtain ⟨rfl, rfl⟩ := hfirst.unique hdiagnoses
        have hreports := readLevel_of_fault hitems
        refine ⟨fault.report text, kind_report fault text, rfl, rfl, ?_, hreports⟩
        intro context
        rw [read_eq_readLevel]
        exact hreports (build read none) context
  · intro hnone
    cases hitems : Item.read text with
    | error fault =>
        rw [hitems] at hdiagnoses
        exact absurd hdiagnoses (hnone _ _)
    | ok items =>
        have hsettled : ∀ opener context, SettledBy (readLevel opener context text)
            (Element.openBox opener context)
            (Element.allBoxes (Element.ofItems none items)) := by
          intro opener context
          exact settledBy_of_failure? (failure?_readLevel hitems opener context)
        refine ⟨items, rfl, ?_, hsettled⟩
        intro context
        rw [read_eq_readLevel]
        exact hsettled (build read none) context

end TextMode.Notation
