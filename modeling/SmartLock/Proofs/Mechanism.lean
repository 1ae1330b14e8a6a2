/-
# Codecs of the mechanical reports

The status and the setting of the third generation, in both directions.  A report is read back from
its bytes, whatever follows them.  Conversely bytes that are long enough are read as a report that
is written with the same bytes: a setting with its first six, a status with its first seven but for
the top bit of the flags, which means nothing and comes out as zero.  Only short bytes are refused
(`mechanism_readsBack`).
-/
import SmartLock.Mechanism.Status

namespace SmartLock

/-- A signed word that was read is written with the same two bytes. -/
theorem writeInt16_readInt16 {b : Bytes} (h : 2 ≤ b.length) :
    writeInt16 (readInt16 b) = b.take 2 := by
  have hlength : (b.take 2).length = 2 := List.length_take_of_le h
  have hwrite : littleEndian 2 (ofLittleEndian (b.take 2)) = b.take 2 := by
    simpa only [hlength] using littleEndian_ofLittleEndian (b.take 2)
  -- Two bytes write a number that fits the word.
  have hmod : ofLittleEndian (b.take 2) = ofLittleEndian (b.take 2) % UInt16.size := by
    have hround := ofLittleEndian_littleEndian 2 (ofLittleEndian (b.take 2))
    rwa [hwrite] at hround
  have hword : (readInt16 b).toUInt16.toNat = ofLittleEndian (b.take 2) := by
    rw [readInt16, readUInt16, UInt16.toUInt16_toInt16, UInt16.toNat_ofNat', hmod.symm]
  rw [writeInt16, hword, hwrite]

/-- Three signed words that were read one after the other are written with the same six bytes. -/
theorem writeInt16_readInt16_three {b : Bytes} (h : 6 ≤ b.length) :
    writeInt16 (readInt16 b) ++ writeInt16 (readInt16 (b.drop 2)) ++
      writeInt16 (readInt16 (b.drop 4)) = b.take 6 := by
  have hfour : b.take 4 = b.take 2 ++ (b.drop 2).take 2 := List.take_add (i := 2) (j := 2)
  have hsix : b.take 6 = b.take 4 ++ (b.drop 4).take 2 := List.take_add (i := 4) (j := 2)
  rw [writeInt16_readInt16 (by omega), writeInt16_readInt16 (by rw [List.length_drop]; omega),
    writeInt16_readInt16 (by rw [List.length_drop]; omega), ← hfour, ← hsix]

namespace SettingOs3

/-- A setting is refused only for want of bytes. -/
theorem ofBytes?_eq_none_iff (b : Bytes) : ofBytes? b = none ↔ b.length < 6 := by
  unfold ofBytes?
  split <;> simp_all

/-- A setting that was read is written with the bytes that it was read from. -/
theorem toBytes_of_ofBytes? {b : Bytes} {s : SettingOs3} (h : ofBytes? b = some s) :
    s.toBytes = b.take 6 := by
  unfold ofBytes? at h
  obtain ⟨hlength, hs⟩ := Option.ite_none_left_eq_some.mp h
  obtain rfl := Option.some.inj hs
  exact writeInt16_readInt16_three (by omega)

end SettingOs3

namespace StatusOs3

/-- A status is refused only for want of bytes. -/
theorem ofBytes?_eq_none_iff (b : Bytes) : ofBytes? b = none ↔ b.length < 7 := by
  have hdrop : b.drop 6 = [] ↔ b.length ≤ 6 := List.drop_eq_nil_iff
  unfold ofBytes?
  split <;> simp_all <;> omega

/-- Flags that were read are packed into the same byte, but for its top bit. -/
theorem packFlags_bits (flags : UInt8) :
    packFlags [bit flags 0, bit flags 1, bit flags 2, bit flags 3, bit flags 4, bit flags 5,
      bit flags 6] = flags &&& 0x7F := by
  have hall : ∀ n : Fin 256, let flags := UInt8.ofNat n
      packFlags [bit flags 0, bit flags 1, bit flags 2, bit flags 3, bit flags 4, bit flags 5,
        bit flags 6] = flags &&& 0x7F := by
    decide +kernel
  simpa using hall ⟨flags.toNat, flags.toNat_lt⟩

/-- A status that was read is written with the bytes that it was read from, but for the top bit of
the flags. -/
theorem toBytes_of_ofBytes? {b : Bytes} {s : StatusOs3} (h : ofBytes? b = some s) :
    s.toBytes = (b.take 7).modify 6 (· &&& 0x7F) := by
  unfold ofBytes? at h
  split at h
  · cases h
  · rename_i flags rest hflags
    have hlength : 7 ≤ b.length := by
      have := congrArg List.length hflags
      simp at this
      omega
    obtain rfl := Option.some.inj h
    have htake : b.take 7 = b.take 6 ++ [flags] := by
      rw [List.take_add (i := 6) (j := 1), hflags]
      rfl
    have hsix : (b.take 6).length = 6 := List.length_take_of_le (by omega)
    rw [toBytes, StatusOs3.flags, packFlags_bits, writeInt16_readInt16_three (by omega), htake,
      List.modify_eq_take_drop]
    simp [hsix]

end StatusOs3

/-- **The codecs of a status and of a setting.**  Both are read back from what they are written as,
with any bytes behind; they are refused exactly if there are fewer than seven or six bytes; and of
other bytes the first seven or six are written again, of a status without the top bit of the
flags. -/
theorem mechanism_readsBack (status : StatusOs3) (setting : SettingOs3) (b rest : Bytes) :
    StatusOs3.ofBytes? (status.toBytes ++ rest) = some status ∧
      SettingOs3.ofBytes? (setting.toBytes ++ rest) = some setting ∧
      (StatusOs3.ofBytes? b = none ↔ b.length < 7) ∧
      (SettingOs3.ofBytes? b = none ↔ b.length < 6) ∧
      (∀ s, StatusOs3.ofBytes? b = some s → s.toBytes = (b.take 7).modify 6 (· &&& 0x7F)) ∧
      (∀ s, SettingOs3.ofBytes? b = some s → s.toBytes = b.take 6) :=
  ⟨StatusOs3.ofBytes?_toBytes status rest, SettingOs3.ofBytes?_toBytes setting rest,
    StatusOs3.ofBytes?_eq_none_iff b, SettingOs3.ofBytes?_eq_none_iff b,
    fun _ h => StatusOs3.toBytes_of_ofBytes? h, fun _ h => SettingOs3.toBytes_of_ofBytes? h⟩

end SmartLock
