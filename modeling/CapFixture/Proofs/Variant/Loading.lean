import CapFixture.Proofs.Record.VariantText
import CapFixture.Proofs.Results
import CapFixture.Variant.Validity

/-!
# Variants that are loaded

A variant that has been loaded is valid. What a library has written is loaded again, or refused for
the defect of the variant, and never for its text.
-/

namespace CapFixture.Variant

variable {v : Variant}

theorem check_eq_ok_iff : v.check = .ok () ↔ v.defect? = none := by
  unfold check
  cases v.defect? <;> simp

/-- Whatever reads the text, what comes of it has been checked. -/
theorem defect?_eq_none_of_load {read : String → Except String Variant} {source : String}
    (h : load read source = .ok v) : v.defect? = none := by
  obtain ⟨w, _, h⟩ := bind_eq_ok_iff.mp h
  obtain ⟨_, hcheck, h⟩ := bind_eq_ok_iff.mp h
  cases h
  exact check_eq_ok_iff.mp hcheck

theorem load_of_read {read : String → Except String Variant} {source : String}
    (h : read source = .ok v) : load read source = v.check >>= fun _ => .ok v := by
  rw [load, h]
  rfl

/-- The record of a variant is read as the variant, and a variant is then refused for what its check
says, and for nothing else. -/
theorem load_write {codec : Codec} (laws : codec.Lawful) (v : Variant) (h : v.InRange) :
    codec.read (codec.write v) = .ok v ∧
    (v.check = .ok () → load codec.read (codec.write v) = .ok v) ∧
    (∀ e, v.check = .error e → load codec.read (codec.write v) = .error e) ∧
    ∀ description, load codec.read (codec.write v) ≠ .error (.malformed description) := by
  have hread := laws.read_write h
  have hload := load_of_read hread
  refine ⟨hread, ?_, ?_, ?_⟩
  · intro hcheck
    rw [hload, hcheck]
    rfl
  · intro e hcheck
    rw [hload, hcheck]
    rfl
  · intro description
    rw [hload, check]
    cases v.defect? with
    | none => exact fun hmalformed => nomatch hmalformed
    | some defect => exact fun hmalformed => nomatch hmalformed

/-- One name is a quote, a backslash, a newline and an extending character. The other does not
print, and its variant has the largest of all limits. -/
theorem load_write_escaped :
    codec.Lawful ∧
    (Variant.mk "\"\\\n\u0301" 24 [1, 8] [] 8 8).InRange ∧
    load codec.read (codec.write (.mk "\"\\\n\u0301" 24 [1, 8] [] 8 8)) =
      .ok (.mk "\"\\\n\u0301" 24 [1, 8] [] 8 8) ∧
    (Variant.mk "\u200b" (wordSize - 1) [] [] 0 0).InRange ∧
    load codec.read (codec.write (.mk "\u200b" (wordSize - 1) [] [] 0 0)) =
      .error (.invalid "\u200b" (.limitTooLarge (wordSize - 1))) := by
  have hvalid : (Variant.mk "\"\\\n\u0301" 24 [1, 8] [] 8 8).InRange :=
    ⟨by decide, by decide, by decide, by decide, by decide⟩
  have hlarge : (Variant.mk "\u200b" (wordSize - 1) [] [] 0 0).InRange :=
    ⟨by decide, by decide, by decide, by decide, by decide⟩
  exact ⟨codec_lawful, hvalid, (load_write codec_lawful _ hvalid).2.1 rfl, hlarge,
    (load_write codec_lawful _ hlarge).2.2.1 _ rfl⟩

end CapFixture.Variant
