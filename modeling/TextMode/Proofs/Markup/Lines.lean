import Mathlib
import TextMode.Proofs.Markup.Decoding
import TextMode.Proofs.Text.Lines

/-!
# S-expressions on lines

The S-expression of a well-named tree is a line, since texts and values are written without
line feeds and no name holds one.
-/

namespace TextMode

theorem isLine_of_isName {name : String} (hname : IsName name) : IsLine name.toList :=
  isLine_of_class rfl (List.all_eq_true.mp hname.2)

/-- A value is written on one line.  A text is quoted, and numbers and words hold no line
feed. -/
theorem AttributeValue.isLine_written (value : AttributeValue) : IsLine value.written := by
  cases value with
  | text content => exact Text.isLine_quote content
  | flag value => cases value <;> decide +kernel
  | number n => exact Text.isLine_signedDecimal n
  | absent => decide +kernel

namespace Node

theorem isLine_spread {parts : List Text} (hparts : ∀ part ∈ parts, IsLine part) :
    IsLine (spread parts) := by
  apply isLine_flatMap.mpr
  intro part hpart
  exact isLine_cons.mpr ⟨by decide, hparts part hpart⟩

theorem isLine_writtenSettings {attributes : Attributes} (hnamed : AreNamed attributes) :
    ∀ part ∈ attributes.map writtenSetting, IsLine part := by
  intro part hpart
  obtain ⟨setting, hsetting, rfl⟩ := List.mem_map.mp hpart
  have hvalue := setting.2.isLine_written
  exact isLine_append.mpr ⟨isLine_of_isName (hnamed setting hsetting),
    isLine_cons.mpr ⟨by decide, hvalue⟩⟩

theorem isLine_writtenText (text : Option Text) :
    ∀ part ∈ (text.map Text.quote).toList, IsLine part := by
  cases text with
  | none => exact List.forall_mem_nil _
  | some content => exact List.forall_mem_singleton.mpr (Text.isLine_quote content)

mutual

/-- A node is written on one line however deep it is.  Kinds and names are words, and all
texts are quoted. -/
theorem isLine_sexpr : ∀ node : Node, node.WellNamed → IsLine node.sexpr
  | mk kind attributes text children => by
      intro hnode
      obtain ⟨hkind, hattributes, hchildren⟩ := hnode
      have hsettings := isLine_spread (isLine_writtenSettings hattributes)
      have htext := isLine_spread (isLine_writtenText text)
      have hsexprs := isLine_spread (isLine_sexprs children hchildren)
      simp [sexpr_mk, isLine_of_isName hkind, hsettings, htext, hsexprs]

theorem isLine_sexprs : ∀ nodes : List Node, AllWellNamed nodes →
    ∀ written ∈ sexprs nodes, IsLine written
  | [] => fun _ => List.forall_mem_nil _
  | node :: nodes => fun hnodes =>
      List.forall_mem_cons.mpr ⟨isLine_sexpr node hnodes.1, isLine_sexprs nodes hnodes.2⟩

end

end Node

end TextMode
