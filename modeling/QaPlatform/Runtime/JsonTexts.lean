import QaPlatform.Base.JsonText
import QaPlatform.Runtime.Json

/-!
# Canonical texts, read back

The texts that the services write are those of `JsonText`, so a string in a document ends where
it ends, whatever comes behind it.
-/

namespace QaPlatform.Runtime

theorem toList_jsonChar (c : Char) : (jsonChar c).toList = JsonText.escape c := by
  unfold jsonChar JsonText.escape
  split
  · rfl
  repeat' split
  all_goals simp [*]

theorem toList_jsonString (value : String) :
    (jsonString value).toList = JsonText.renderText value.toList := by
  have hchars : (value.toList.map jsonChar).flatMap String.toList
      = value.toList.flatMap JsonText.escape := by
    rw [List.flatMap_map]
    simp only [toList_jsonChar]
  simp only [jsonString, String.toList_append, String.toList_join, hchars, JsonText.renderText]
  rfl

/-- A string and what comes behind it. -/
theorem jsonString_append_inj {a b : String} {rest rest' : List Char}
    (h : (jsonString a).toList ++ rest = (jsonString b).toList ++ rest') :
    a = b ∧ rest = rest' := by
  rw [toList_jsonString, toList_jsonString] at h
  obtain ⟨htext, hrest⟩ := JsonText.renderText_append_inj h
  exact ⟨String.toList_injective htext, hrest⟩

end QaPlatform.Runtime
