/-
# Packets out of arbitrary fragments

What a channel puts together when anybody may send it anything, in any order, and when the packet in
progress may be given up at any time.  What counts are the fragments with a payload that have come
since the last reset; they end in a run, which begins with the last fragment that starts a packet
(`Fragment.EndsInRun`).  A packet is in progress exactly if no fragment of this run is a last one
(`Reassembly.afterAll_eq_collecting_iff`), and a message is complete exactly with the last fragment
of a run that is not too long (`Reassembly.complete_iff_endsInRun`).

As long as no fragment has started a packet since the reset, the run begins with whatever has come
first.  So a message may be complete that no fragment has started
(`Reassembly.not_forall_complete_starts`).
-/
import SmartLock.Proofs.Link.Counters

namespace SmartLock

/-! ## Runs of fragments -/

namespace Fragment

/-- Whether a fragment has a payload; one without is dropped. -/
def hasPayload : Bytes → Bool
  | _ :: _ :: _ => true
  | _ => false

/-- Whether a fragment is marked as the first one of a packet. -/
def starts : Bytes → Bool
  | header :: _ => isStart header
  | [] => false

/-- Whether a fragment is the last one of a plain packet. -/
def isPlain : Bytes → Bool
  | header :: _ :: _ => kind header = .plain
  | _ => false

/-- The payloads of some fragments, one after the other. -/
def payloads (fragments : List Bytes) : Bytes := (fragments.map List.tail).flatten

/-- A fragment with a payload is a header and some bytes. -/
theorem hasPayload_iff {fragment : Bytes} :
    hasPayload fragment = true ↔ ∃ header byte rest, fragment = header :: byte :: rest := by
  rcases fragment with _ | ⟨header, _ | ⟨byte, rest⟩⟩ <;> simp [hasPayload]

/-- The payload of one more fragment comes last. -/
theorem payloads_concat (fragments : List Bytes) (fragment : Bytes) :
    payloads (fragments ++ [fragment]) = payloads fragments ++ fragment.tail := by
  simp [payloads]

/-- Some fragments end in a run: what comes after its first fragment starts no packet, and its first
fragment does, unless the run is all there is. -/
structure EndsInRun (fragments earlier run : List Bytes) : Prop where
  split : fragments = earlier ++ run
  first : earlier = [] ∨ run.head?.any starts = true
  others : ∀ fragment ∈ run.tail, starts fragment = false

/-- A fragment that starts a packet begins a new run, and every other one continues the run. -/
theorem endsInRun_concat_iff {fragments earlier run : List Bytes} {fragment : Bytes} :
    EndsInRun (fragments ++ [fragment]) earlier (run ++ [fragment]) ↔
      if starts fragment then run = [] ∧ earlier = fragments
      else EndsInRun fragments earlier run := by
  have hsplit : fragments ++ [fragment] = earlier ++ (run ++ [fragment]) ↔
      fragments = earlier ++ run := by
    rw [← List.append_assoc, List.append_cancel_right_eq]
  cases run with
  | nil =>
      by_cases hstarts : starts fragment = true
      · rw [if_pos hstarts]
        constructor
        · intro h
          exact ⟨rfl, by simpa using (hsplit.mp h.split).symm⟩
        · rintro ⟨-, rfl⟩
          exact ⟨rfl, .inr hstarts, by simp⟩
      · rw [if_neg hstarts]
        constructor
        · intro h
          refine ⟨hsplit.mp h.split, .inl ?_, by simp⟩
          exact h.first.resolve_right hstarts
        · intro h
          refine ⟨hsplit.mpr h.split, .inl ?_, by simp⟩
          exact h.first.resolve_right (by simp)
  | cons first rest =>
      have htail : (∀ f ∈ (first :: rest ++ [fragment]).tail, starts f = false) ↔
          (∀ f ∈ rest, starts f = false) ∧ starts fragment = false := by
        simp [or_imp, forall_and]
      by_cases hstarts : starts fragment = true
      · rw [if_pos hstarts]
        constructor
        · intro h
          have hnot := (htail.mp h.others).2
          rw [hstarts] at hnot
          cases hnot
        · rintro ⟨h, -⟩
          cases h
      · rw [if_neg hstarts]
        constructor
        · intro h
          exact ⟨hsplit.mp h.split, h.first, (htail.mp h.others).1⟩
        · intro h
          exact ⟨hsplit.mpr h.split, h.first, htail.mpr ⟨h.others, by simpa using hstarts⟩⟩

/-- A run ends with the last fragment. -/
theorem EndsInRun.eq_concat {fragments earlier run : List Bytes} {fragment : Bytes}
    (h : EndsInRun (fragments ++ [fragment]) earlier run) :
    ∃ before, run = before ++ [fragment] := by
  rcases List.eq_nil_or_concat run with rfl | ⟨before, last, rfl⟩
  · have hnone : earlier = [] := h.first.resolve_right (by simp)
    have hsplit := h.split
    rw [hnone] at hsplit
    simp at hsplit
  · have hsplit := h.split
    rw [List.concat_eq_append, ← List.append_assoc] at hsplit
    obtain ⟨-, hlast⟩ := List.append_inj' hsplit rfl
    exact ⟨before, by rw [List.concat_eq_append, hlast]⟩

/-- Nothing ends in nothing. -/
theorem endsInRun_nil_iff {earlier run : List Bytes} :
    EndsInRun [] earlier run ↔ earlier = [] ∧ run = [] := by
  constructor
  · intro h
    exact List.append_eq_nil_iff.mp h.split.symm
  · rintro ⟨rfl, rfl⟩
    exact ⟨rfl, .inl rfl, by simp⟩

end Fragment

/-- The kind of a fragment that assembles a packet. -/
theorem Channel.kind_of_assembles {c : Channel} {fragment packet : Bytes} {kind : FragmentKind}
    (h : c.Assembles fragment kind packet) : Fragment.kind (fragment.headD 0) = kind := by
  obtain ⟨header, payload, buffer, rfl, -, hkind, -⟩ := h
  exact hkind

/-! ## Fragments since the last reset -/

/-- The fragments with a payload since the last reset, after one more intake. -/
def Intake.extend (fragments : List Bytes) : Intake → List Bytes
  | .receive _ fragment =>
      if Fragment.hasPayload fragment then fragments ++ [fragment] else fragments
  | .reset => []

/-- The fragments with a payload since the last reset. -/
def Intake.sinceReset (intakes : List Intake) : List Bytes := intakes.foldl Intake.extend []

namespace Reassembly

/-! ## One fragment -/

/-- A fragment with a payload makes the packet grow, unless it is a last one. -/
theorem take_receive_of_not_isLast (r : Reassembly) (cipher : Cipher) {fragment : Bytes}
    (h : Fragment.hasPayload fragment = true) (hlast : Fragment.isLast fragment = false) :
    r.take (.receive cipher fragment) =
      (r.before (Fragment.starts fragment)).grow fragment.tail := by
  obtain ⟨header, byte, rest, rfl⟩ := Fragment.hasPayload_iff.mp h
  have hkind : Fragment.kind header = .notFinished := by simpa [Fragment.isLast] using hlast
  rw [take, Fragment.starts, List.tail_cons, Channel.receive]
  · cases r.before (Fragment.isStart header) with
    | skipping buffer => rfl
    | collecting buffer =>
        by_cases hlong : buffer.length + (byte :: rest).length > Channel.maxReceived
        · simp only [grow, if_pos hlong]
          rfl
        · simp only [grow, if_neg hlong, if_pos hkind]
  · simp

/-- With a last fragment the packet is over, whatever comes of it. -/
theorem exists_take_receive_of_isLast (r : Reassembly) (cipher : Cipher) {fragment : Bytes}
    (hlast : Fragment.isLast fragment = true) :
    ∃ kept, r.take (.receive cipher fragment) = .skipping kept := by
  rw [take]
  rcases Channel.receive_cases ⟨cipher, r⟩ fragment with ⟨hlen, -⟩ | ⟨header, payload, -, -, heq⟩ |
    ⟨packet, ⟨header, payload, buffer, rfl, hne, hkind, -⟩, -⟩ | ⟨kind, packet, -, -, heq⟩
  · rcases fragment with _ | ⟨header, _ | ⟨byte, rest⟩⟩
    · cases hlast
    · cases hlast
    · simp at hlen
  · rw [heq]
    exact ⟨_, rfl⟩
  · obtain ⟨byte, rest, rfl⟩ := List.exists_cons_of_ne_nil hne
    exact absurd hkind (by simpa [Fragment.isLast] using hlast)
  · obtain ⟨kept, hkept, -⟩ := Channel.exists_reassembly_finish ⟨cipher, r⟩ kind packet
    rw [heq]
    exact ⟨kept, hkept⟩

/-- A fragment without a payload changes nothing. -/
theorem take_receive_of_not_hasPayload (r : Reassembly) (cipher : Cipher) {fragment : Bytes}
    (h : Fragment.hasPayload fragment = false) : r.take (.receive cipher fragment) = r := by
  rcases fragment with _ | ⟨header, _ | ⟨byte, rest⟩⟩
  · rfl
  · rfl
  · cases h

/-- A packet has grown to `packet` exactly if the payload was its end and it is not too long. -/
theorem grow_eq_collecting_iff {r : Reassembly} {payload packet : Bytes} :
    r.grow payload = .collecting packet ↔
      ∃ buffer, r = .collecting buffer ∧ packet = buffer ++ payload ∧
        packet.length ≤ Channel.maxReceived := by
  cases r with
  | skipping => simp [grow]
  | collecting buffer =>
      by_cases hlong : buffer.length + payload.length > Channel.maxReceived
      · simp only [grow, if_pos hlong, reduceCtorEq, false_iff]
        rintro ⟨_, h, rfl, hlen⟩
        cases h
        rw [List.length_append] at hlen
        omega
      · simp only [grow, if_neg hlong, collecting.injEq]
        constructor
        · rintro rfl
          exact ⟨buffer, rfl, rfl, by rw [List.length_append]; omega⟩
        · rintro ⟨_, rfl, rfl, -⟩
          rfl

/-! ## All fragments -/

/-- One more intake changes what has come since the last reset. -/
theorem sinceReset_concat (intakes : List Intake) (intake : Intake) :
    Intake.sinceReset (intakes ++ [intake]) = intake.extend (Intake.sinceReset intakes) := by
  rw [Intake.sinceReset, List.foldl_append]
  rfl

/-- The fragments end in a run without a last one, whose payloads make up `buffer`. -/
def Gathers (fragments : List Bytes) (buffer : Bytes) : Prop :=
  ∃ earlier run, Fragment.EndsInRun fragments earlier run ∧
    (∀ fragment ∈ run, Fragment.isLast fragment = false) ∧
    buffer = Fragment.payloads run ∧ buffer.length ≤ Channel.maxReceived

/-- From nothing, nothing is gathered. -/
theorem gathers_nil_iff {buffer : Bytes} : Gathers [] buffer ↔ buffer = [] := by
  constructor
  · rintro ⟨earlier, run, hrun, -, rfl, -⟩
    obtain ⟨-, rfl⟩ := Fragment.endsInRun_nil_iff.mp hrun
    rfl
  · rintro rfl
    exact ⟨[], [], Fragment.endsInRun_nil_iff.mpr ⟨rfl, rfl⟩, by simp, rfl, Nat.zero_le _⟩

/-- What a fragment is added to, in terms of the run that it ends: the payloads before it. -/
theorem before_eq_collecting_iff {r : Reassembly} {fragments : List Bytes}
    (h : ∀ buffer, r = .collecting buffer ↔ Gathers fragments buffer) (fragment buffer : Bytes) :
    r.before (Fragment.starts fragment) = .collecting buffer ↔
      ∃ earlier run, Fragment.EndsInRun (fragments ++ [fragment]) earlier (run ++ [fragment]) ∧
        (∀ f ∈ run, Fragment.isLast f = false) ∧ buffer = Fragment.payloads run ∧
        buffer.length ≤ Channel.maxReceived := by
  by_cases hstarts : Fragment.starts fragment = true
  · simp only [Fragment.endsInRun_concat_iff, hstarts, before_true, if_true, collecting.injEq]
    constructor
    · rintro rfl
      exact ⟨fragments, [], ⟨rfl, rfl⟩, by simp, rfl, Nat.zero_le _⟩
    · rintro ⟨earlier, run, ⟨rfl, -⟩, -, rfl, -⟩
      rfl
  · simp only [Fragment.endsInRun_concat_iff, if_neg hstarts]
    rw [Bool.not_eq_true] at hstarts
    rw [hstarts, before_false]
    exact h buffer

/-- The payload of the next fragment completes a packet exactly if that is made up of the payloads
of the run that the fragment ends, none of which but this one is a last one. -/
theorem grow_before_eq_collecting_iff {r : Reassembly} {fragments : List Bytes}
    (h : ∀ buffer, r = .collecting buffer ↔ Gathers fragments buffer) (fragment packet : Bytes) :
    (r.before (Fragment.starts fragment)).grow fragment.tail = .collecting packet ↔
      ∃ earlier run, Fragment.EndsInRun (fragments ++ [fragment]) earlier (run ++ [fragment]) ∧
        (∀ f ∈ run, Fragment.isLast f = false) ∧
        packet = Fragment.payloads (run ++ [fragment]) ∧
        packet.length ≤ Channel.maxReceived := by
  simp only [grow_eq_collecting_iff, before_eq_collecting_iff h, Fragment.payloads_concat]
  constructor
  · rintro ⟨buffer, ⟨earlier, run, hrun, hlast, rfl, -⟩, rfl, hlen⟩
    exact ⟨earlier, run, hrun, hlast, rfl, hlen⟩
  · rintro ⟨earlier, run, hrun, hlast, rfl, hlen⟩
    have hshorter : (Fragment.payloads run).length ≤ Channel.maxReceived := by
      rw [List.length_append] at hlen
      omega
    exact ⟨_, ⟨earlier, run, hrun, hlast, rfl, hshorter⟩, rfl, hlen⟩

/-- A packet is in progress exactly if the run has no last fragment and is not too long; then it is
made up of the payloads of the run. -/
theorem afterAll_eq_collecting_iff (intakes : List Intake) (buffer : Bytes) :
    afterAll intakes = .collecting buffer ↔ Gathers (Intake.sinceReset intakes) buffer := by
  have hempty (buffer : Bytes) : (default : Reassembly) = .collecting buffer ↔
      Gathers [] buffer := by
    rw [gathers_nil_iff, show (default : Reassembly) = .collecting [] from rfl, collecting.injEq,
      eq_comm]
  induction intakes using List.reverseRecOn generalizing buffer with
  | nil => exact hempty buffer
  | append_singleton intakes intake ih =>
      rw [afterAll_concat, sinceReset_concat]
      cases intake with
      | reset => exact hempty buffer
      | receive cipher fragment =>
          cases hpayload : Fragment.hasPayload fragment with
          | false =>
              rw [take_receive_of_not_hasPayload _ _ hpayload, Intake.extend, hpayload]
              exact ih buffer
          | true =>
              rw [Intake.extend, if_pos hpayload]
              constructor
              · intro h
                cases hlast : Fragment.isLast fragment with
                | true =>
                    obtain ⟨kept, hkept⟩ := exists_take_receive_of_isLast _ cipher hlast
                    cases hkept.symm.trans h
                | false =>
                    rw [take_receive_of_not_isLast _ _ hpayload hlast] at h
                    obtain ⟨earlier, run, hrun, hrest, hbuffer, hlen⟩ :=
                      (grow_before_eq_collecting_iff ih fragment buffer).mp h
                    refine ⟨earlier, run ++ [fragment], hrun, ?_, hbuffer, hlen⟩
                    exact List.forall_mem_append.mpr ⟨hrest, by simpa using hlast⟩
              · rintro ⟨earlier, whole, hrun, hnone, hbuffer, hlen⟩
                obtain ⟨run, rfl⟩ := hrun.eq_concat
                have hlast : Fragment.isLast fragment = false := hnone fragment (by simp)
                rw [take_receive_of_not_isLast _ _ hpayload hlast]
                refine (grow_before_eq_collecting_iff ih fragment buffer).mpr
                  ⟨earlier, run, hrun, ?_, hbuffer, hlen⟩
                exact fun f hf => hnone f (List.mem_append_left _ hf)

/-! ## Messages -/

/-- The last fragment of a packet of some kind completes it exactly if the packet is made up of the
payloads of the run that the fragment ends. -/
theorem assembles_iff (intakes : List Intake) (cipher : Cipher) {fragment : Bytes}
    (hpayload : Fragment.hasPayload fragment = true) (packet : Bytes) :
    (⟨cipher, afterAll intakes⟩ : Channel).Assembles fragment
        (Fragment.kind (fragment.headD 0)) packet ↔
      ∃ earlier run,
        Fragment.EndsInRun (Intake.sinceReset (intakes ++ [.receive cipher fragment])) earlier
          (run ++ [fragment]) ∧
        (∀ f ∈ run, Fragment.isLast f = false) ∧
        packet = Fragment.payloads (run ++ [fragment]) ∧
        packet.length ≤ Channel.maxReceived := by
  rw [sinceReset_concat, Intake.extend, if_pos hpayload,
    ← grow_before_eq_collecting_iff (afterAll_eq_collecting_iff intakes), grow_eq_collecting_iff]
  obtain ⟨header, byte, rest, rfl⟩ := Fragment.hasPayload_iff.mp hpayload
  constructor
  · rintro ⟨_, _, buffer, heq, -, -, hbefore, hpacket, hlen⟩
    obtain ⟨rfl, rfl⟩ := List.cons.inj heq
    exact ⟨buffer, hbefore, hpacket, hlen⟩
  · rintro ⟨buffer, hbefore, hpacket, hlen⟩
    exact ⟨header, byte :: rest, buffer, rfl, by simp, rfl, hbefore, hpacket, hlen⟩

/-- **What a complete message is made of.**  Let fragments come in any order, each of them whatever
it may be and for a cipher in whatever state, and let the packet in progress be given up at any
time.  A fragment completes a message exactly if it is the last one of a run of those fragments with
a payload that have come since the last reset, no other fragment of the run is a last one, and all
payloads of the run together are not too long.  They are the message, or they are decrypted to it.

The first fragment of the run starts a packet unless the run is all there is since the reset. -/
theorem complete_iff_endsInRun (intakes : List Intake) (cipher : Cipher)
    (fragment message : Bytes) (authenticated : Bool) :
    ((⟨cipher, afterAll intakes⟩ : Channel).receive fragment).2 =
        .complete message authenticated ↔
      ∃ earlier run,
        Fragment.EndsInRun (Intake.sinceReset (intakes ++ [.receive cipher fragment])) earlier
          (run ++ [fragment]) ∧
        (∀ f ∈ run, Fragment.isLast f = false) ∧
        (Fragment.payloads (run ++ [fragment])).length ≤ Channel.maxReceived ∧
        ((Fragment.isPlain fragment = true ∧ authenticated = false ∧
            message = Fragment.payloads (run ++ [fragment])) ∨
          (Fragment.isEncrypted fragment = true ∧ authenticated = true ∧
            ∃ key, cipher.key = some key ∧
              Ccm.decrypt? key cipher.receiveNonce Cipher.associated
                (Fragment.payloads (run ++ [fragment])) = some message)) := by
  rw [Channel.snd_receive_eq_complete_iff]
  cases hpayload : Fragment.hasPayload fragment with
  | false =>
      -- A fragment without a payload is no last one and assembles nothing.
      rcases fragment with _ | ⟨header, _ | ⟨byte, rest⟩⟩
      · simp [Channel.Assembles, Channel.Authenticates, Fragment.isPlain, Fragment.isEncrypted]
      · simp [Channel.Assembles, Channel.Authenticates, Fragment.isPlain, Fragment.isEncrypted]
      · cases hpayload
  | true =>
      have hassembles := assembles_iff intakes cipher hpayload
      have hplain : Fragment.isPlain fragment = true ↔
          Fragment.kind (fragment.headD 0) = .plain := by
        obtain ⟨header, byte, rest, rfl⟩ := Fragment.hasPayload_iff.mp hpayload
        simp [Fragment.isPlain]
      have hencrypted : Fragment.isEncrypted fragment = true ↔
          Fragment.kind (fragment.headD 0) = .encrypted := by
        obtain ⟨header, byte, rest, rfl⟩ := Fragment.hasPayload_iff.mp hpayload
        simp [Fragment.isEncrypted]
      constructor
      · rintro (⟨rfl, hmessage⟩ | ⟨rfl, key, packet, hkey, hpacket, hdecrypt⟩)
        · have hkind := Channel.kind_of_assembles hmessage
          obtain ⟨earlier, run, hrun, hlast, rfl, hlen⟩ := (hassembles _).mp (hkind ▸ hmessage)
          exact ⟨earlier, run, hrun, hlast, hlen, .inl ⟨hplain.mpr hkind, rfl, rfl⟩⟩
        · have hkind := Channel.kind_of_assembles hpacket
          obtain ⟨earlier, run, hrun, hlast, rfl, hlen⟩ := (hassembles _).mp (hkind ▸ hpacket)
          exact ⟨earlier, run, hrun, hlast, hlen,
            .inr ⟨hencrypted.mpr hkind, rfl, key, hkey, hdecrypt⟩⟩
      · rintro ⟨earlier, run, hrun, hlast, hlen, ⟨hkind, rfl, rfl⟩ |
          ⟨hkind, rfl, key, hkey, hdecrypt⟩⟩
        · refine .inl ⟨rfl, ?_⟩
          rw [← hplain.mp hkind]
          exact (hassembles _).mpr ⟨earlier, run, hrun, hlast, rfl, hlen⟩
        · refine .inr ⟨rfl, key, _, hkey, ?_, hdecrypt⟩
          rw [← hencrypted.mp hkind]
          exact (hassembles _).mpr ⟨earlier, run, hrun, hlast, rfl, hlen⟩

/-- Not every message that is complete has been started: a new channel takes the end of a packet for
the whole of it. -/
theorem not_forall_complete_starts :
    ¬ ∀ (intakes : List Intake) (cipher : Cipher) (fragment message : Bytes) (authenticated : Bool),
      ((⟨cipher, afterAll intakes⟩ : Channel).receive fragment).2 =
          .complete message authenticated →
        ∃ earlier run,
          Intake.sinceReset (intakes ++ [.receive cipher fragment]) = earlier ++ run ∧
            run.head?.any Fragment.starts = true := by
  intro h
  obtain ⟨earlier, run, hsplit, hstarts⟩ :=
    h [] (Cipher.new .os3 .central) [2, 1, 2] [1, 2] false (by decide)
  have hone : [[2, 1, 2]] = earlier ++ run := hsplit
  rcases List.append_eq_singleton_iff.mp hone.symm with ⟨-, rfl⟩ | ⟨-, rfl⟩
  · revert hstarts
    decide
  · cases hstarts

end Reassembly

end SmartLock
