/-!
# Parts of a text

A text is split at a character. Parts that are joined by it, and do not have it, are read back.

## Main definitions

- `parts` — what stands between the places of a character
-/

namespace CapFixture.Text

/-- What stands between the places of the character. -/
def parts (separator : Char) (text : String) : List String :=
  (text.toList.splitOn separator).map String.ofList

variable {separator : Char} {texts : List String}

theorem splitOn_intercalate (hne : texts ≠ []) (htexts : ∀ text ∈ texts, separator ∉ text.toList) :
    ((String.singleton separator).intercalate texts).toList.splitOn separator =
      texts.map String.toList := by
  rw [String.toList_intercalate, String.toList_singleton]
  exact List.splitOn_intercalate separator (List.forall_mem_map.mpr htexts) (by simpa using hne)

theorem parts_intercalate (hne : texts ≠ []) (htexts : ∀ text ∈ texts, separator ∉ text.toList) :
    parts separator ((String.singleton separator).intercalate texts) = texts := by
  rw [parts, splitOn_intercalate hne htexts, List.map_map, String.ofList_comp_toList, List.map_id]

/-- A text without the character is one part. -/
theorem parts_of_not_mem {text : String} (h : separator ∉ text.toList) :
    parts separator text = [text] := by
  have hparts := parts_intercalate (List.cons_ne_nil text []) (List.forall_mem_singleton.mpr h)
  rw [String.intercalate_singleton] at hparts
  exact hparts

end CapFixture.Text
