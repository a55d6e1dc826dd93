import Mathlib
import TextMode.Proofs.Notation.Depth
import TextMode.Proofs.Outline.Syntax

/-!
# Reading the outline of a text

What is read of a text does not depend on the context.  A text either fails with one
error in every context, or it has an outline, and in every context the nodes built for
it are those of the outline under the font of that context.
-/

namespace TextMode

open TextMode.Notation

namespace Outline

/-! ## Runs in all contexts -/

section Uniform

variable {α β γ σ τ υ : Type}

/-- A run gives the same error in every context, or there is an outline whose rendering
under the font of the context is its result. -/
def RunsUniformly (run : Context → Except TexError α) (isOutline : σ → Prop)
    (render : Option Text → σ → α) : Prop :=
  (∃ error, ∀ context, run context = .error error) ∨
    ∃ outline, isOutline outline ∧
      ∀ context, run context = .ok (render context.font outline)

namespace RunsUniformly

theorem of_ok {run : Context → Except TexError α} {isOutline : σ → Prop}
    {render : Option Text → σ → α} (outline : σ) (houtline : isOutline outline)
    (hrun : ∀ context, run context = .ok (render context.font outline)) :
    RunsUniformly run isOutline render :=
  .inr ⟨outline, houtline, hrun⟩

variable {run : Context → Except TexError α} {isOutline : σ → Prop}
  {render : Option Text → σ → α}

/-- A step that turns the result into another one by means of the font.  The outline is
converted along with the result, and without the font. -/
theorem map (hrun : RunsUniformly run isOutline render) {isOutline' : τ → Prop}
    {render' : Option Text → τ → β} {f : Context → α → β} (convert : σ → τ)
    (houtline : ∀ outline, isOutline outline → isOutline' (convert outline))
    (hrender : ∀ context outline,
      f context (render context.font outline) = render' context.font (convert outline)) :
    RunsUniformly (fun context => run context >>= fun result => pure (f context result))
      isOutline' render' := by
  rcases hrun with ⟨error, herror⟩ | ⟨outline, hisOutline, hresult⟩
  · left
    refine ⟨error, ?_⟩
    intro context
    simp only [herror]
    rfl
  · apply of_ok (convert outline) (houtline outline hisOutline)
    intro context
    rw [hresult, ← hrender]
    rfl

/-- Two runs one after the other.  The first one that fails does so in every context, so the
second one does not show in which of them it runs. -/
theorem append {next : Context → Except TexError β} {isNext : τ → Prop}
    {renderNext : Option Text → τ → β} (hrun : RunsUniformly run isOutline render)
    (hnext : RunsUniformly next isNext renderNext) {isBoth : υ → Prop}
    {renderBoth : Option Text → υ → γ} {f : α → β → γ} (join : σ → τ → υ)
    (houtline : ∀ first second, isOutline first → isNext second → isBoth (join first second))
    (hrender : ∀ font first second,
      f (render font first) (renderNext font second) = renderBoth font (join first second)) :
    RunsUniformly
      (fun context => run context >>= fun left => next context >>= fun right =>
        pure (f left right))
      isBoth renderBoth := by
  rcases hrun with ⟨error, herror⟩ | ⟨first, hfirst, hleft⟩
  · left
    refine ⟨error, ?_⟩
    intro context
    simp only [herror]
    rfl
  · rcases hnext with ⟨error, herror⟩ | ⟨second, hsecond, hright⟩
    · left
      refine ⟨error, ?_⟩
      intro context
      simp only [hleft, herror]
      rfl
    · apply of_ok (join first second) (houtline first second hfirst hsecond)
      intro context
      rw [hleft, hright, ← hrender]
      rfl

/-- A run under the font of a text command.  The command decides the font inside it for
every font outside, so the run stays uniform. -/
theorem enter (hrun : RunsUniformly run isOutline render) (command : TextCommand) :
    RunsUniformly (fun context => run (command.enter context)) isOutline
      (fun font outline => render (innerFont command font) outline) := by
  rcases hrun with ⟨error, herror⟩ | ⟨outline, houtline, hresult⟩
  · left
    exact ⟨error, fun context => herror _⟩
  · apply of_ok outline houtline
    intro context
    rw [hresult, font_enter]

end RunsUniformly

end Uniform

/-! ## Every text has an outline or an error -/

/-- A text is scanned into the segments of its outline. -/
def ScansUniformly (text : Text) : Prop :=
  RunsUniformly (fun context => scan read context text) (IsOutline text)
    (fun font blocks => blocks.map (Block.segment font))

theorem ScansUniformly.build {text : Text} (hscan : ScansUniformly text)
    (level : Option ScriptLevel) :
    RunsUniformly (fun context => build read level context text) (IsOutline text)
      (fun font blocks => wrap level (blockNodes font blocks)) := by
  apply RunsUniformly.map hscan id (fun _ houtline => houtline)
  intro context blocks
  rw [map_toNode_segment, id]

mutual

theorem toNode_uniform : ∀ element : Element,
    (∀ box ∈ Element.boxes element, ScansUniformly box.2) →
    RunsUniformly (fun context => Element.toNode (build read none) context element)
      (fun part => part.element = element ∧ part.IsRead) Part.node
  | .control name => fun _ => .of_ok (.control name) ⟨rfl, trivial⟩ fun _ => rfl
  | .special char => fun _ => .of_ok (.special char) ⟨rfl, trivial⟩ fun _ => rfl
  | .characters run => fun _ => .of_ok (.characters run) ⟨rfl, trivial⟩ fun _ => rfl
  | .group members => by
      intro hboxes
      apply RunsUniformly.map (toNodes_uniform members hboxes) Part.group
      · rintro parts ⟨rfl, hread⟩
        exact ⟨rfl, hread⟩
      · intro context parts
        rfl
  | .textBox command body => by
      intro hboxes
      have hbody := (hboxes _ (List.mem_singleton_self _)).build none
      apply RunsUniformly.map (hbody.enter command) (Part.textBox command body)
      · intro blocks houtline
        exact ⟨rfl, houtline⟩
      · intro context blocks
        rfl

theorem toNodes_uniform : ∀ members : List Element,
    (∀ box ∈ Element.allBoxes members, ScansUniformly box.2) →
    RunsUniformly (fun context => Element.toNodes (build read none) context members)
      (fun parts => elements parts = members ∧ PartsAreRead parts) partNodes
  | [] => fun _ => .of_ok [] ⟨rfl, trivial⟩ fun _ => rfl
  | element :: members => by
      intro hboxes
      have hhead := toNode_uniform element fun box hbox =>
        hboxes box (List.mem_append_left _ hbox)
      have htail := toNodes_uniform members fun box hbox =>
        hboxes box (List.mem_append_right _ hbox)
      apply RunsUniformly.append hhead htail List.cons
      · rintro part parts ⟨rfl, hpart⟩ ⟨rfl, hparts⟩
        exact ⟨rfl, hpart, hparts⟩
      · intro font part parts
        rfl

end

/-- An island is read uniformly if the bodies of text boxes are that are shorter than it. -/
theorem read_uniform {source : Text}
    (hboxes : ∀ body, body.length + 7 ≤ source.length → ScansUniformly body) :
    RunsUniformly (fun context => read context source)
      (fun parts => Element.read source = .ok (elements parts) ∧ PartsAreRead parts)
      (fun font parts => .group "math" [] (partNodes font parts)) := by
  simp only [read_eq_readLevel, readLevel]
  cases hread : Element.read source with
  | error fault => exact .inl ⟨fault.report source, fun _ => rfl⟩
  | ok members =>
      have hmembers := toNodes_uniform members fun box hbox =>
        hboxes box.2 (Element.length_box_of_read hread hbox)
      apply RunsUniformly.map hmembers id
      · rintro parts ⟨rfl, hparts⟩
        exact ⟨rfl, hparts⟩
      · intro context parts
        rfl

theorem pieces_uniform {pieces : List Piece}
    (hislands : ∀ kind source, .island kind source ∈ pieces →
      ∀ body : Text, body.length + 7 ≤ source.length → ScansUniformly body) :
    RunsUniformly (fun context => pieces.mapM (Piece.read read context))
      (fun blocks => blocks.map Block.piece = pieces ∧ BlocksAreRead blocks)
      (fun font blocks => blocks.map (Block.segment font)) := by
  induction pieces with
  | nil => exact .of_ok [] ⟨rfl, trivial⟩ fun _ => rfl
  | cons piece pieces ih =>
      have hhead : RunsUniformly (fun context => piece.read read context)
          (fun block => block.piece = piece ∧ block.IsRead) Block.segment := by
        cases piece with
        | plain text => exact .of_ok (.plain text) ⟨rfl, trivial⟩ fun _ => rfl
        | island kind source =>
            have hread := read_uniform (hislands kind source (List.mem_cons_self ..))
            apply RunsUniformly.map hread (Block.island kind source)
            · intro parts hparts
              exact ⟨rfl, hparts⟩
            · intro context parts
              rfl
      have htail := ih fun kind source hmem =>
        hislands kind source (List.mem_cons_of_mem _ hmem)
      simp only [List.mapM_cons]
      apply RunsUniformly.append hhead htail List.cons
      · rintro block blocks ⟨rfl, hblock⟩ ⟨rfl, hblocks⟩
        exact ⟨rfl, hblock, hblocks⟩
      · intro font block blocks
        rfl

/-- Every text is scanned into the segments of its outline, or it fails with one error in
every context.  The induction is on the length: the bodies of text boxes are shorter than
the text they stand in. -/
theorem scans_uniformly (text : Text) : ScansUniformly text := by
  induction hlength : text.length using Nat.strong_induction_on generalizing text with
  | _ length ih =>
    cases hsplit : split text with
    | error error =>
        left
        refine ⟨error, ?_⟩
        intro context
        simp only [scan, hsplit]
        rfl
    | ok pieces =>
        have hpieces : RunsUniformly (fun context => pieces.mapM (Piece.read read context))
            (fun blocks => blocks.map Block.piece = pieces ∧ BlocksAreRead blocks)
            (fun font blocks => blocks.map (Block.segment font)) := by
          apply pieces_uniform
          intro kind source hpiece body hbody
          have hsource := length_source_le_of_split hsplit hpiece
          exact ih body.length (by omega) body rfl
        rw [ScansUniformly]
        simp only [scan, hsplit]
        rcases hpieces with herror | ⟨blocks, ⟨rfl, hread⟩, hrun⟩
        · exact .inl herror
        · exact .of_ok blocks ⟨hsplit, hread⟩ hrun

/-- What is built for a text is one error, or the nodes of its outline.  The context enters
with its font only, and only where the outline is rendered. -/
theorem builds_uniformly (level : Option ScriptLevel) (text : Text) :
    (∃ error, ∀ context, build read level context text = .error error) ∨
      ∃ blocks, IsOutline text blocks ∧
        ∀ context, build read level context text =
          .ok (wrap level (blockNodes context.font blocks)) :=
  (scans_uniformly text).build level

end Outline

end TextMode
