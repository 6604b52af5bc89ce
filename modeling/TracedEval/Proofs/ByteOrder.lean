import Mathlib.Data.String.Basic
import TracedEval.Sink

/-!
# The order of texts

Strings are ordered by their code points. Their bytes are ordered in the same way, as the encoding
of a character tells, with its first byte or one after it, how the character compares to any other.

* `utf8EncodeChar_append_lt` is this for two characters, whatever follows them;
* `textBytes_lt_iff` is that bytes are ordered as strings are, and `map_toNat_lt_iff` that the
  numbers of the code points are.
-/

namespace TracedEval

/-! ## Characters -/

/-- The first byte decides, if it differs. -/
theorem ofNat_cons_lt {a b : ℕ} {l m : List UInt8} (hb : b < 256) (hle : a ≤ b)
    (h : a = b → l < m) : UInt8.ofNat a :: l < UInt8.ofNat b :: m := by
  rw [List.cons_lt_cons_iff]
  rcases hle.lt_or_eq with hlt | rfl
  · left
    rw [UInt8.lt_iff_toNat_lt, UInt8.toNat_ofNat_of_lt' (hlt.trans hb), UInt8.toNat_ofNat_of_lt' hb]
    exact hlt
  · exact .inr ⟨rfl, h rfl⟩

theorem utf8EncodeChar_append_lt {c d : Char} (h : c < d) (l m : List UInt8) :
    String.utf8EncodeChar c ++ l < String.utf8EncodeChar d ++ m := by
  have hlt : c.val.toNat < d.val.toNat := h
  have hd := d.valid
  simp only [UInt32.isValidChar, Nat.isValidChar] at hd
  simp only [String.utf8EncodeChar]
  generalize c.val.toNat = a at hlt
  generalize d.val.toNat = b at hlt hd
  -- the cases are how many bytes each has; the smaller character never has more
  split_ifs
  all_goals first
    | omega
    | simp only [List.cons_append, List.nil_append]
      repeat refine ofNat_cons_lt (by omega) (by omega) fun _ => ?_
      omega

theorem nil_lt_utf8EncodeChar_append (c : Char) (l : List UInt8) :
    [] < String.utf8EncodeChar c ++ l := by
  obtain ⟨b, bytes, hbytes⟩ := List.exists_cons_of_ne_nil (String.utf8EncodeChar_ne_nil (c := c))
  rw [hbytes]
  exact List.nil_lt_cons _ _

/-! ## Strings -/

theorem textBytes_eq_flatMap (s : String) :
    textBytes s = s.toList.flatMap String.utf8EncodeChar := by
  rw [textBytes, String.toUTF8, ← String.utf8Encode_toList, List.utf8Encode,
    List.toList_data_toByteArray]

theorem flatMap_utf8EncodeChar_lt {l m : List Char} (h : l < m) :
    l.flatMap String.utf8EncodeChar < m.flatMap String.utf8EncodeChar := by
  induction h with
  | nil => exact nil_lt_utf8EncodeChar_append _ _
  | rel h => exact utf8EncodeChar_append_lt h _ _
  | cons h ih => exact List.append_left_lt ih

/-- The order of strings is that of their bytes. -/
theorem textBytes_lt_iff {s t : String} : textBytes s < textBytes t ↔ s < t := by
  have hmono : ∀ {s t : String}, s < t → textBytes s < textBytes t := by
    intro s t h
    rw [textBytes_eq_flatMap, textBytes_eq_flatMap]
    exact flatMap_utf8EncodeChar_lt (String.lt_iff_toList_lt.mp h)
  refine ⟨fun h => ?_, hmono⟩
  rcases lt_trichotomy s t with hlt | rfl | hgt
  · exact hlt
  · exact absurd h (List.lt_irrefl _)
  · exact absurd h (List.lt_asymm (hmono hgt))

example : textBytes "\uFFFD" < textBytes "😀" := by decide

/-- The order of strings is that of the numbers of their code points. -/
theorem map_toNat_lt_iff {s t : String} :
    s.toList.map Char.toNat < t.toList.map Char.toNat ↔ s < t := by
  have hmono : StrictMono fun s : String => s.toList.map Char.toNat :=
    fun _ _ h => List.map_lt (fun _ _ h => h) (String.lt_iff_toList_lt.mp h)
  exact hmono.lt_iff_lt

theorem append_lt_append_iff {r s t : String} : r ++ s < r ++ t ↔ s < t := by
  have hmono : StrictMono fun s : String => r ++ s := by
    intro s t h
    rw [String.lt_iff_toList_lt] at h ⊢
    rw [String.toList_append, String.toList_append]
    exact List.append_left_lt h
  exact hmono.lt_iff_lt

end TracedEval
