/-
# Identifiers that are read back

The hyphenated text of an identifier is read as the identifier (`Uuid.ofText?_toText`).
-/
import SmartLock.Discovery.Uuid
import SmartLock.Proofs.Text.Hex

namespace SmartLock.Uuid

/-- The hyphens between groups of the right sizes are left out. -/
theorem hyphenated?_groups {first second third fourth fifth : Bytes} (hfirst : first.length = 8)
    (hsecond : second.length = 4) (hthird : third.length = 4) (hfourth : fourth.length = 4)
    (hfifth : fifth.length = 12) :
    hyphenated? (first ++ 45 :: second ++ 45 :: third ++ 45 :: fourth ++ 45 :: fifth) =
      some (first ++ second ++ third ++ fourth ++ fifth) := by
  rw [hyphenated?, if_pos]
  · simp (disch := omega) [List.drop_append, List.drop_eq_nil_of_le, *]
  · simp [*]

/-- **Identifiers are read back.**  The text of an identifier is read as the identifier. -/
theorem ofText?_toText (u : Uuid) : ofText? u.toText = some u := by
  have hdigits : (Hex.digits u.toBytes).length = 32 := by
    rw [Hex.length_digits, u.length_toBytes]
  let b : Bytes := (Hex.digits u.toBytes).map fun c => UInt8.ofNat c.toNat
  have hb : b.length = 32 := (List.length_map _).trans hdigits
  -- The text is cut where the hyphens are.
  have hbytes : Utf8.bytesOf u.toText = b.take 8 ++ 45 :: (b.drop 8).take 4 ++
      45 :: (b.drop 12).take 4 ++ 45 :: (b.drop 16).take 4 ++ 45 :: b.drop 20 := by
    rw [Utf8.bytesOf, toText, String.toList_ofList, Utf8.encode_of_ascii]
    · simp [b]
    · intro c hc
      have hmem : c = '-' ∨ c ∈ Hex.digits u.toBytes := by
        grind [List.mem_of_mem_take, List.mem_of_mem_drop]
      rcases hmem with rfl | hmem
      · decide
      · exact Hex.toNat_lt_of_mem_digits hmem
  have hgroups : b.take 8 ++ (b.drop 8).take 4 ++ (b.drop 12).take 4 ++ (b.drop 16).take 4 ++
      b.drop 20 = b := by
    rw [← List.take_add (i := 8) (j := 4), ← List.take_add (i := 12) (j := 4),
      ← List.take_add (i := 16) (j := 4), List.take_append_drop]
  have hread : hyphenated? (Utf8.bytesOf u.toText) = some b := by
    rw [hbytes, hyphenated?_groups (by simp [hb]) (by simp [hb]) (by simp [hb]) (by simp [hb])
      (by simp [hb]), hgroups]
  have hlength : (Utf8.bytesOf u.toText).length = 36 := by
    rw [hbytes]
    simp [hb]
  have hofDigits : ofDigits? b = some u := by
    rw [ofDigits?, if_pos hb, Hex.decodePairs_digits]
    exact Octets.ofBytes?_eq_some_iff.mpr rfl
  rw [ofText?, if_neg (by rw [hlength]; decide), if_pos hlength, hread]
  exact hofDigits

end SmartLock.Uuid
