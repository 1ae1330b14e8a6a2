/-
# Nonces after any steps

The two directions of a link take their steps in any order.  How often a direction has taken one is
all that its nonce depends on (`Nonces.get_foldl_advance`), so that the nonces after any
interleaving can be written down at once: in the second generation a counter of 39 bits under the
mark of the direction, in the third the number of the steps (`Nonces.layout_after`).
-/
import SmartLock.Proofs.Link.Counters

namespace SmartLock

/-! ## Steps in any order -/

namespace Nonces

/-- A direction has taken as many steps as there are of it, whatever the other one has taken. -/
theorem get_foldl_advance (rule : NonceRule) (nonces : Nonces) (steps : List Direction)
    (d : Direction) : (steps.foldl (advance rule) nonces).get d =
      (NonceState.advance rule d)^[steps.count d] (nonces.get d) := by
  induction steps generalizing nonces with
  | nil => rfl
  | cons e rest ih =>
      rw [List.foldl_cons, ih]
      by_cases h : e = d
      · subst h
        rw [get_advance_self, List.count_cons_self, Function.iterate_succ_apply]
      · rw [get_advance_of_ne h, List.count_cons_of_ne h]

/-! ## Nonces of the second generation -/

/-- The counter of a direction after so many steps: 39 bits, above which the mark of the direction
stands. -/
def markedCount (steps : Nat) : Direction → Nat
  | .toPeripheral => 2 ^ 39 + steps % 2 ^ 39
  | .toCentral => steps % 2 ^ 39

/-- It has five bytes. -/
theorem markedCount_lt (steps : Nat) (d : Direction) : markedCount steps d < 2 ^ 40 := by
  cases d with
  | toPeripheral => simp only [markedCount]; omega
  | toCentral => simp only [markedCount]; omega

/-- It says the direction, and the number of the steps as far as 39 bits can. -/
theorem markedCount_eq_iff {m n : Nat} {d e : Direction} :
    markedCount m d = markedCount n e ↔ d = e ∧ m % 2 ^ 39 = n % 2 ^ 39 := by
  cases d with
  | toPeripheral =>
      cases e with
      | toPeripheral => simp [markedCount]
      | toCentral => simp only [markedCount, reduceCtorEq, false_and, iff_false]; omega
  | toCentral =>
      cases e with
      | toPeripheral => simp only [markedCount, reduceCtorEq, false_and, iff_false]; omega
      | toCentral => simp [markedCount]

/-- The nonce of a direction after so many steps: its counter and the tokens of both parties. -/
def marked (central peripheral : Token) (steps : Nat) (d : Direction) : Nonce :=
  Octets.ofBytes 13
    (littleEndian 5 (markedCount steps d) ++ (central.toBytes ++ peripheral.toBytes))

/-- The bytes of such a nonce. -/
theorem toBytes_marked (central peripheral : Token) (steps : Nat) (d : Direction) :
    (marked central peripheral steps d).toBytes =
      littleEndian 5 (markedCount steps d) ++ (central.toBytes ++ peripheral.toBytes) :=
  Octets.toBytes_ofBytes (by simp [central.length_toBytes, peripheral.length_toBytes])

/-- It says the direction, and the number of the steps as far as 39 bits can. -/
theorem marked_eq_marked_iff {central peripheral : Token} {m n : Nat} {d e : Direction} :
    marked central peripheral m d = marked central peripheral n e ↔
      d = e ∧ m % 2 ^ 39 = n % 2 ^ 39 := by
  rw [← markedCount_eq_iff]
  constructor
  · intro h
    have hbytes := congrArg Octets.toBytes h
    rw [toBytes_marked, toBytes_marked] at hbytes
    have hcount := littleEndian_eq_littleEndian_iff.mp (List.append_inj hbytes (by simp)).1
    have hsize : Nat.pow 256 5 = 2 ^ 40 := by decide
    rwa [hsize, Nat.mod_eq_of_lt (markedCount_lt m d), Nat.mod_eq_of_lt (markedCount_lt n e)]
      at hcount
  · intro h
    rw [marked, marked, h]

end Nonces

/-- The nonce of a direction after so many steps, and the counter that says so. -/
def NonceState.marked (central peripheral : Token) (steps : Nat) (d : Direction) : NonceState :=
  ⟨Nonces.marked central peripheral steps d, UInt64.ofNat (Nonces.markedCount steps d)⟩

/-- The counter of a direction fits into its word. -/
theorem NonceState.toNat_count_marked (central peripheral : Token) (steps : Nat) (d : Direction) :
    (NonceState.marked central peripheral steps d).count.toNat = Nonces.markedCount steps d :=
  UInt64.toNat_ofNat_of_lt' (Nat.lt_trans (Nonces.markedCount_lt steps d) (by decide))

/-- A new link has taken no steps. -/
theorem Nonces.get_start_os2 (central peripheral : Token) (d : Direction) :
    (Nonces.start .os2 central peripheral).get d = .marked central peripheral 0 d := by
  have hbytes : (Octets.ofBytes 13 (List.replicate 5 0 ++ central.toBytes ++
      peripheral.toBytes)).toBytes.drop 5 = central.toBytes ++ peripheral.toBytes := by
    rw [Octets.toBytes_ofBytes (by simp [central.length_toBytes, peripheral.length_toBytes]),
      List.append_assoc, List.drop_left' List.length_replicate]
  cases d with
  | toPeripheral =>
      simp only [get, start, writeCounter, hbytes]
      rfl
  | toCentral =>
      simp only [get, start, List.append_assoc]
      rfl

/-- A step counts one, and comes back to the mark of the direction after 2 ^ 39. -/
theorem NonceRule.toNat_next_os2 (d : Direction) (count : UInt64) :
    (NonceRule.os2.next d count).toNat = Nonces.markedCount (count.toNat + 1) d := by
  have hlow : ((count + 1) &&& counterMask).toNat = (count.toNat + 1) % 2 ^ 39 := by
    rw [toNat_and_counterMask, UInt64.toNat_add]
    exact Nat.mod_mod_of_dvd _ (by decide)
  cases d with
  | toPeripheral =>
      -- The mark is cut off with the carry, and set again.
      have hbit : outwardBit.toNat = 2 ^ 39 * 1 := by decide
      have hlt : (count.toNat + 1) % 2 ^ 39 < 2 ^ 39 := Nat.mod_lt _ (by decide)
      rw [next, UInt64.toNat_or, hlow, hbit, Nat.or_comm, ← Nat.two_pow_add_eq_or_of_lt hlt 1]
      rfl
  | toCentral => exact hlow

/-- A step leads to the next nonce of its direction. -/
theorem NonceState.advance_marked (central peripheral : Token) (steps : Nat) (d : Direction) :
    (NonceState.marked central peripheral steps d).advance .os2 d =
      .marked central peripheral (steps + 1) d := by
  have hcount : NonceRule.os2.next d (NonceState.marked central peripheral steps d).count =
      (NonceState.marked central peripheral (steps + 1) d).count := by
    rw [← UInt64.toNat_inj, NonceRule.toNat_next_os2, toNat_count_marked, toNat_count_marked]
    cases d <;> simp only [Nonces.markedCount] <;> omega
  have hdrop : (NonceState.marked central peripheral steps d).nonce.toBytes.drop 5 =
      central.toBytes ++ peripheral.toBytes := by
    rw [marked, Nonces.toBytes_marked, List.drop_left' (length_littleEndian 5 _)]
  simp only [NonceState.advance, writeCounter, hcount, hdrop, toNat_count_marked]
  rfl

namespace Nonces

/-- The nonces of a new link after some steps, in the order in which the directions take them. -/
def after (rule : NonceRule) (central peripheral : Token) (steps : List Direction) : Nonces :=
  steps.foldl (advance rule) (start rule central peripheral)

section After

variable (central peripheral : Token) (steps : List Direction) (d : Direction)

/-- In the second generation each direction has the nonce for the number of its own steps. -/
theorem get_after_os2 : (after .os2 central peripheral steps).get d =
    .marked central peripheral (steps.count d) d := by
  rw [after, get_foldl_advance, get_start_os2]
  induction steps.count d with
  | zero => rfl
  | succ n ih => rw [Function.iterate_succ_apply', ih, NonceState.advance_marked]

/-- In the third generation, too. -/
theorem get_after_os3 : (after .os3 central peripheral steps).get d =
    .numbered peripheral (steps.count d) := by
  rw [after, get_foldl_advance, get_start_os3]
  induction steps.count d with
  | zero => rfl
  | succ n ih => rw [Function.iterate_succ_apply', ih, NonceState.advance_numbered]

end After

/-- **Nonces after any steps.**  In the second generation the counter to the peripheral is 2 ^ 39
and the number of its steps modulo 2 ^ 39, the one to the central is that number alone, and a nonce
is the counter in five bytes and the tokens of central and peripheral.  So nonces of the two
directions are never equal, whatever steps have been taken, and those of one direction exactly for
numbers that are equal modulo 2 ^ 39.  In the third generation a nonce is the number of steps modulo
2 ^ 40 in five bytes, four zeros and the token of the peripheral; steps of the other direction do
not change it. -/
theorem layout_after (central peripheral : Token) :
    ((∀ steps,
        ((after .os2 central peripheral steps).get .toPeripheral).count.toNat =
          2 ^ 39 + steps.count .toPeripheral % 2 ^ 39 ∧
        ((after .os2 central peripheral steps).get .toCentral).count.toNat =
          steps.count .toCentral % 2 ^ 39) ∧
      (∀ steps d, ((after .os2 central peripheral steps).get d).nonce.toBytes =
        littleEndian 5 ((after .os2 central peripheral steps).get d).count.toNat ++
          (central.toBytes ++ peripheral.toBytes)) ∧
      (∀ steps steps', ((after .os2 central peripheral steps).get .toPeripheral).nonce ≠
        ((after .os2 central peripheral steps').get .toCentral).nonce) ∧
      ∀ steps steps' d, ((after .os2 central peripheral steps).get d).nonce =
          ((after .os2 central peripheral steps').get d).nonce ↔
        steps.count d % 2 ^ 39 = steps'.count d % 2 ^ 39) ∧
    (∀ steps d, ((after .os3 central peripheral steps).get d).nonce.toBytes =
      littleEndian 5 (steps.count d % 2 ^ 40) ++ (List.replicate 4 0 ++ peripheral.toBytes)) ∧
    ∀ steps d, (after .os3 central peripheral steps).get d =
      (after .os3 central peripheral (steps.filter (· = d))).get d := by
  have hcount (steps : List Direction) (d : Direction) :
      ((after .os2 central peripheral steps).get d).count.toNat =
        markedCount (steps.count d) d := by
    rw [get_after_os2, NonceState.toNat_count_marked]
  have hnonce (steps : List Direction) (d : Direction) :
      ((after .os2 central peripheral steps).get d).nonce =
        marked central peripheral (steps.count d) d := by
    rw [get_after_os2]
    rfl
  refine ⟨⟨fun steps => ⟨hcount steps _, hcount steps _⟩, fun steps d => ?_,
    fun steps steps' heq => ?_, fun steps steps' d => ?_⟩, fun steps d => ?_, fun steps d => ?_⟩
  · rw [hnonce, hcount, toBytes_marked]
  · rw [hnonce, hnonce, marked_eq_marked_iff] at heq
    cases heq.1
  · rw [hnonce, hnonce, marked_eq_marked_iff]
    exact and_iff_right rfl
  · -- Only the low bytes of the number are written.
    have hlow : littleEndian 5 (steps.count d) = littleEndian 5 (steps.count d % 2 ^ 40) :=
      littleEndian_eq_littleEndian_iff.mpr (Nat.mod_mod _ _).symm
    rw [get_after_os3, ← hlow]
    exact toBytes_numbered peripheral (steps.count d)
  · have hown : (steps.filter (· = d)).count d = steps.count d := List.count_filter (by simp)
    rw [get_after_os3, get_after_os3, hown]

end Nonces

end SmartLock
