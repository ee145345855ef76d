import LiterateMarkdown.Proofs.Property.WrittenForm
import Mathlib.Tactic.TFAE

/-!
# Property lists that can be read

The lists that a text can be read as are those whose names and keys have a certain shape, and these
are the lists that are read back from their written form (`parse_join_toText_tfae`). The shape is
told by characters alone and says nothing of tokens. The values of attributes are free: they are
written between quotes, so they may hold quotes, backslashes, braces and newlines.
-/

namespace LiterateMarkdown

namespace Property

/-- The shape of the properties that a text can be read as. -/
def WellShaped : Property → Prop
  | .identifier name | .className name => IsName name
  | .attribute key _ => IsKey key

theorem wellShaped_iff_writable (property : Property) :
    property.WellShaped ↔ property.Writable := by
  rcases property with name | name | ⟨key, value⟩
  · exact isName_iff name
  · exact isName_iff name
  · exact isKey_iff key

/--
The lists that can be read are those of the shape, and they are the lists that are read back from
their written form. So reading, writing and reading again is reading once.
-/
theorem parse_join_toText_tfae (properties : List Property) :
    List.TFAE [
      ∀ property ∈ properties, property.WellShaped,
      parse (Text.join [' '] (properties.map toText)) = .ok properties,
      ∃ text, parse text = .ok properties] := by
  tfae_have 1 → 2 := by
    intro wellShaped
    apply parse_join_toText
    intro property present
    exact (wellShaped_iff_writable property).mp (wellShaped property present)
  tfae_have 2 → 3 := fun read => ⟨_, read⟩
  tfae_have 3 → 1 := by
    rintro ⟨text, read⟩ property present
    apply (wellShaped_iff_writable property).mpr
    exact writable_of_parse read property present
  tfae_finish

end Property

end LiterateMarkdown
