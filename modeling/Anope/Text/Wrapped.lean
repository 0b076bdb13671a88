import Anope.Text.Scanned

/-!
# Lines that are those of the text

A line that is cut at its last space, or at a blank where there is none, loses nothing else.  A
text is kept when each of its lines is cut so; without formatting there is no other way to keep
it.
-/

namespace Anope.Text

open Library.While

/-! ## Where the line is cut -/

variable {maxLength : Nat} {text : Str} {chr : UInt8} {scan : Scan}

/-- A scan that starts with what is carried over. -/
theorem Scanned.new {formatting : List Str} (codes : ∀ fmt ∈ formatting, IsCode fmt) :
    Scanned formatting [] ⟨0, formatting.flatten, 0, 0, formatting, []⟩ where
  idx := rfl
  out := (List.append_nil _).symm
  currentLength := rfl
  lastSpace := rfl
  codes := codes
  uncertain := fun _ => rfl
  formatting := fun isNew _ => isNew

/-! ## A line that is cut -/

variable {wrapper : LineWrapper}

/-- No character of a text starts or is a formatting code. -/
def Plain (text : Str) : Prop :=
  ∀ chr ∈ text, isFormat chr = false

instance decidablePlain (text : Str) : Decidable (Plain text) :=
  decidable_of_iff (text.all fun chr => !isFormat chr) (by
    rw [List.all_eq_true]
    exact forall₂_congr fun chr _ => iff_of_eq (Bool.not_eq_true' _))

theorem Plain.of_append {first second : Str} (plain : Plain (first ++ second)) :
    Plain first ∧ Plain second :=
  ⟨fun chr mem => plain chr (List.mem_append_left second mem),
    fun chr mem => plain chr (List.mem_append_right first mem)⟩

theorem Plain.opens (plain : Plain text) (active : List (Option UInt8)) :
    opens active text = true := by
  have same := @opens_of_plain text [] active plain
  rwa [List.append_nil] at same

theorem Plain.ne_colour (plain : Plain text) {chr : UInt8} (mem : chr ∈ text) :
    isToggle chr = false ∧ chr ≠ 0x03 ∧ chr ≠ 0x04 := by
  have isPlain := plain chr mem
  simp only [isFormat, Bool.or_eq_false_iff, beq_eq_false_iff_ne] at isPlain
  exact ⟨isPlain.1.1.1, isPlain.1.2, isPlain.2⟩

theorem Plain.shortColours (plain : Plain text) : shortColours text = true := by
  induction text with
  | nil => rfl
  | cons chr text ih =>
      rw [Text.shortColours, bne_iff_ne.mpr (plain.ne_colour List.mem_cons_self).2.1, Bool.true_or,
        ih fun other mem => plain other (List.mem_cons_of_mem chr mem)]
      rfl

theorem Plain.hasCode (plain : Plain text) : hasCode text = false := by
  rw [Text.hasCode, List.any_eq_false]
  intro chr mem
  obtain ⟨noToggle, noColour, noHex⟩ := plain.ne_colour mem
  rw [noToggle, beq_eq_false_iff_ne.mpr noColour, beq_eq_false_iff_ne.mpr noHex]
  exact Bool.false_ne_true

theorem Plain.lastWord (plain : Plain text) : Plain (lastWord text) := fun chr mem =>
  plain chr (List.mem_reverse.mp ((List.takeWhile_prefix _).subset (List.mem_reverse.mp mem)))

variable {lines : List Str}

end Anope.Text
