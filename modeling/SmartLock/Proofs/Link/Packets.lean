/-
# Receiving the fragments of a packet

A channel that receives the fragments of one packet in their order.  Before the last one it only
collects or skips, and the last one is the end of what it has then (`receiveAll_split`).  The start
mark of the first fragment makes this independent of what the channel was doing before.

What it has is the whole packet, if that is not too long (`Reassembly.ofPacket_of_le`).  Otherwise the
packet is skipped, and the buffer keeps some beginning of it
(`Reassembly.exists_ofPacket_eq_skipping`).
-/
import SmartLock.Proofs.Link.Reception

namespace SmartLock

/-! ## Pieces and fragments -/

/-- No piece is empty. -/
theorem ne_nil_of_mem_piecesWithin {size : Nat} (hsize : 0 < size) (fuel : Nat) (b : Bytes) :
    ∀ piece ∈ piecesWithin size fuel b, piece ≠ [] := by
  induction fuel generalizing b with
  | zero => simp [piecesWithin]
  | succ fuel ih =>
      intro piece hpiece
      cases b with
      | nil => simp [piecesWithin] at hpiece
      | cons byte rest =>
          rw [piecesWithin, if_neg (by simp), List.mem_cons] at hpiece
          rcases hpiece with rfl | hpiece
          · obtain ⟨k, rfl⟩ := Nat.exists_eq_succ_of_ne_zero (Nat.pos_iff_ne_zero.mp hsize)
            simp
          · exact ih _ piece hpiece

namespace Fragment

/-- A packet that is not empty has a piece. -/
theorem pieces_ne_nil {packet : Bytes} (h : packet ≠ []) : packet.pieces payloadSize ≠ [] := by
  intro hnil
  apply h
  rw [← Bytes.flatten_pieces (by decide : 0 < payloadSize) packet, hnil]
  rfl

/-- The pieces of a packet are not empty. -/
theorem ne_nil_of_mem_pieces {packet piece : Bytes} (h : piece ∈ packet.pieces payloadSize) :
    piece ≠ [] :=
  ne_nil_of_mem_piecesWithin (by decide) _ _ piece h

/-- The fragment around a piece that is not the last one. -/
theorem wrap_cons_cons (encrypted start : Bool) (piece next : Bytes) (rest : List Bytes) :
    wrap encrypted start (piece :: next :: rest) =
      (header start .notFinished :: piece) :: wrap encrypted false (next :: rest) := rfl

/-- The kind of a packet's last fragment says that it is one. -/
theorem lastKind_ne_notFinished (encrypted : Bool) : lastKind encrypted ≠ .notFinished := by
  cases encrypted <;> decide

/-- The fragment around a piece is a last one according to its kind. -/
theorem isLast_header (start : Bool) (k : FragmentKind) {piece : Bytes} (h : piece ≠ []) :
    isLast (header start k :: piece) = decide (k ≠ .notFinished) := by
  obtain ⟨byte, rest, rfl⟩ := List.exists_cons_of_ne_nil h
  simp [isLast]

/-- Exactly one fragment around some pieces is a last one. -/
theorem countP_isLast_wrap (encrypted start : Bool) {pieces : List Bytes} (hne : pieces ≠ [])
    (hpieces : ∀ piece ∈ pieces, piece ≠ []) :
    (wrap encrypted start pieces).countP isLast = 1 := by
  induction pieces generalizing start with
  | nil => exact absurd rfl hne
  | cons piece rest ih =>
      have hpiece := hpieces piece List.mem_cons_self
      cases rest with
      | nil =>
          rw [wrap, List.countP_singleton, isLast_header _ _ hpiece]
          simp [lastKind_ne_notFinished]
      | cons next rest =>
          rw [wrap_cons_cons, List.countP_cons, isLast_header _ _ hpiece,
            ih false (by simp) (fun p hp => hpieces p (List.mem_cons_of_mem _ hp))]
          simp

/-- Exactly one fragment of a packet is a last one. -/
theorem countP_isLast_split (encrypted : Bool) {packet : Bytes} (h : packet ≠ []) :
    (split encrypted packet).countP isLast = 1 :=
  countP_isLast_wrap _ _ (pieces_ne_nil h) (fun _ hpiece => ne_nil_of_mem_pieces hpiece)

/-- No fragment around some pieces but the last one is a last one. -/
theorem not_isLast_of_mem_dropLast_wrap (encrypted start : Bool) {pieces : List Bytes}
    (hpieces : ∀ piece ∈ pieces, piece ≠ []) :
    ∀ fragment ∈ (wrap encrypted start pieces).dropLast, isLast fragment = false := by
  induction pieces generalizing start with
  | nil => simp [wrap]
  | cons piece rest ih =>
      cases rest with
      | nil => simp [wrap]
      | cons next rest =>
          intro fragment hmem
          have hne : wrap encrypted false (next :: rest) ≠ [] := by
            cases rest <;> simp [wrap]
          rw [wrap_cons_cons, List.dropLast_cons_of_ne_nil hne, List.mem_cons] at hmem
          rcases hmem with rfl | hmem
          · rw [isLast_header _ _ (hpieces piece List.mem_cons_self)]
            decide
          · exact ih false (fun p hp => hpieces p (List.mem_cons_of_mem _ hp)) fragment hmem

/-- No fragment of a packet but the last one is a last one. -/
theorem not_isLast_of_mem_dropLast_split (encrypted : Bool) (packet : Bytes) :
    ∀ fragment ∈ (split encrypted packet).dropLast, isLast fragment = false :=
  not_isLast_of_mem_dropLast_wrap _ _ (fun _ hpiece => ne_nil_of_mem_pieces hpiece)

end Fragment

/-! ## Packets that grow -/

namespace Reassembly

/-- The packet in progress after one more payload: one that becomes too long is skipped, and the
buffer stays as it was. -/
def grow : Reassembly → Bytes → Reassembly
  | .skipping buffer, _ => .skipping buffer
  | .collecting buffer, payload =>
      if buffer.length + payload.length > Channel.maxReceived then .skipping buffer
      else .collecting (buffer ++ payload)

/-- The packet in progress after several payloads. -/
def growAll (r : Reassembly) (payloads : List Bytes) : Reassembly := payloads.foldl grow r

/-- The first of several payloads. -/
theorem growAll_cons (r : Reassembly) (payload : Bytes) (rest : List Bytes) :
    r.growAll (payload :: rest) = (r.grow payload).growAll rest := rfl

/-- A packet that is skipped does not grow. -/
@[simp] theorem growAll_skipping (buffer : Bytes) (payloads : List Bytes) :
    (skipping buffer).growAll payloads = skipping buffer := by
  induction payloads with
  | nil => rfl
  | cons payload rest ih => exact ih

/-- Several payloads make a packet grow by all of them together, if that is not too long. -/
theorem growAll_collecting {buffer : Bytes} {payloads : List Bytes}
    (h : (buffer ++ payloads.flatten).length ≤ Channel.maxReceived) :
    (collecting buffer).growAll payloads = .collecting (buffer ++ payloads.flatten) := by
  induction payloads generalizing buffer with
  | nil => rw [List.flatten_nil, List.append_nil, growAll, List.foldl_nil]
  | cons payload rest ih =>
      rw [List.flatten_cons, ← List.append_assoc] at h ⊢
      have hfirst : ¬ buffer.length + payload.length > Channel.maxReceived := by
        simp only [List.length_append] at h
        omega
      rw [growAll_cons, grow, if_neg hfirst, ih h]

/-- If it is too long the packet is skipped, and the buffer keeps what it held before. -/
theorem exists_growAll_collecting_eq_skipping {buffer : Bytes} {payloads : List Bytes}
    (hbuffer : buffer.length ≤ Channel.maxReceived)
    (h : Channel.maxReceived < (buffer ++ payloads.flatten).length) :
    ∃ kept, (collecting buffer).growAll payloads = .skipping kept := by
  induction payloads generalizing buffer with
  | nil =>
      rw [List.flatten_nil, List.append_nil] at h
      omega
  | cons payload rest ih =>
      rw [List.flatten_cons, ← List.append_assoc] at h
      rw [growAll_cons]
      by_cases hfirst : buffer.length + payload.length > Channel.maxReceived
      · exact ⟨buffer, by rw [grow, if_pos hfirst, growAll_skipping]⟩
      · have hgrown : (buffer ++ payload).length ≤ Channel.maxReceived := by
          rw [List.length_append]
          omega
        rw [grow, if_neg hfirst]
        exact ih hgrown h

/-- What the fragments of a packet make of the buffer, piece by piece. -/
def ofPacket (packet : Bytes) : Reassembly :=
  (collecting []).growAll (packet.pieces Fragment.payloadSize)

/-- A packet that is not too long is collected. -/
theorem ofPacket_of_le {packet : Bytes} (h : packet.length ≤ Channel.maxReceived) :
    ofPacket packet = .collecting packet := by
  have hpieces : (packet.pieces Fragment.payloadSize).flatten = packet :=
    Bytes.flatten_pieces (by decide) packet
  rw [ofPacket, growAll_collecting (by rwa [List.nil_append, hpieces]), List.nil_append, hpieces]

/-- A packet that is too long is skipped. -/
theorem exists_ofPacket_eq_skipping {packet : Bytes} (h : Channel.maxReceived < packet.length) :
    ∃ kept, ofPacket packet = .skipping kept := by
  refine exists_growAll_collecting_eq_skipping (Nat.zero_le _) ?_
  rwa [List.nil_append, Bytes.flatten_pieces (by decide)]

end Reassembly

/-- A fragment that does not start a packet continues the one in progress. -/
@[simp] theorem Reassembly.before_false (r : Reassembly) : r.before false = r := rfl

/-- A fragment that starts a packet begins with nothing. -/
@[simp] theorem Reassembly.before_true (r : Reassembly) : r.before true = .collecting [] := rfl

/-! ## Receiving several fragments -/

/-- Neither a whole message nor a forgery: what a fragment leads to before its packet has come to
an end. -/
def Received.IsQuiet (r : Received) : Prop :=
  r ≠ .skipping true ∧ ∀ message authenticated, r ≠ .complete message authenticated

namespace Channel

/-- The channel after several fragments, and what each of them led to. -/
def receiveAll (c : Channel) : List Bytes → Channel × List Received
  | [] => (c, [])
  | fragment :: rest =>
      let after := c.receive fragment
      let last := after.1.receiveAll rest
      (last.1, after.2 :: last.2)

/-- Fragments in two parts. -/
theorem receiveAll_append (c : Channel) (first second : List Bytes) :
    c.receiveAll (first ++ second) =
      (((c.receiveAll first).1.receiveAll second).1,
        (c.receiveAll first).2 ++ ((c.receiveAll first).1.receiveAll second).2) := by
  induction first generalizing c with
  | nil => rfl
  | cons fragment rest ih => simp only [List.cons_append, receiveAll, ih]

/-- A fragment that is not a last one leads to nothing of note and leaves the cipher alone. -/
theorem receive_of_not_isLast (c : Channel) {fragment : Bytes}
    (h : Fragment.isLast fragment = false) :
    (c.receive fragment).2.IsQuiet ∧ (c.receive fragment).1.cipher = c.cipher := by
  rcases receive_cases c fragment with ⟨-, heq⟩ | ⟨header, payload, rfl, hne, heq⟩ |
    ⟨packet, -, heq⟩ | ⟨kind, packet, hkind, ⟨header, payload, buffer, rfl, hne, rfl, -⟩, -⟩
  · rw [heq]
    exact ⟨⟨by simp, by simp⟩, rfl⟩
  · obtain ⟨byte, rest, rfl⟩ := List.exists_cons_of_ne_nil hne
    have hkind : Fragment.kind header = .notFinished := by simpa [Fragment.isLast] using h
    rw [heq, hkind]
    exact ⟨⟨by simp [skip], by simp [skip]⟩, rfl⟩
  · rw [heq]
    exact ⟨⟨by simp, by simp⟩, rfl⟩
  · obtain ⟨byte, rest, rfl⟩ := List.exists_cons_of_ne_nil hne
    exact absurd h (by simpa [Fragment.isLast] using hkind)

/-- What a packet in progress leads to with the last fragment, which is of the given kind. -/
def conclude (c : Channel) (kind : FragmentKind) : Reassembly → Channel × Received
  | .skipping buffer => c.skip kind buffer
  | .collecting packet => c.finish kind packet

/-- The end of a packet does not ask for the packet in progress a second time. -/
theorem conclude_congr (c : Channel) (r : Reassembly) (kind : FragmentKind) (end_ : Reassembly) :
    ({ c with reassembly := r } : Channel).conclude kind end_ = c.conclude kind end_ := by
  cases end_ with
  | skipping buffer => rfl
  | collecting packet => cases kind <;> rfl

/-- A fragment around a piece makes the packet in progress grow by that piece. -/
theorem receive_header (c : Channel) (start : Bool) (kind : FragmentKind) {piece : Bytes}
    (h : piece ≠ []) :
    c.receive (Fragment.header start kind :: piece) =
      match (c.reassembly.before start).grow piece with
      | .skipping buffer => c.skip kind buffer
      | .collecting packet =>
          if kind = .notFinished then
            ({ c with reassembly := .collecting packet }, .requireMore)
          else c.finish kind packet := by
  obtain ⟨byte, rest, rfl⟩ := List.exists_cons_of_ne_nil h
  rw [receive, Fragment.isStart_header, Fragment.kind_header]
  · cases hbefore : c.reassembly.before start with
    | skipping buffer => rfl
    | collecting buffer =>
        by_cases hlong : buffer.length + (byte :: rest).length > maxReceived
        · simp only [Reassembly.grow, if_pos hlong]
        · simp only [Reassembly.grow, if_neg hlong]
  · simp

/-- Before its last fragment a packet only grows or is skipped. -/
theorem receive_header_notFinished (c : Channel) (start : Bool) {piece : Bytes}
    (h : piece ≠ []) :
    (c.receive (Fragment.header start .notFinished :: piece)).1 =
        { c with reassembly := (c.reassembly.before start).grow piece } ∧
      (c.receive (Fragment.header start .notFinished :: piece)).2.IsQuiet := by
  rw [receive_header c start .notFinished h]
  cases (c.reassembly.before start).grow piece with
  | skipping buffer => exact ⟨rfl, nofun, nofun⟩
  | collecting packet => exact ⟨rfl, nofun, nofun⟩

/-- With its last fragment a packet comes to its end. -/
theorem receive_header_lastKind (c : Channel) (start encrypted : Bool) {piece : Bytes}
    (h : piece ≠ []) :
    c.receive (Fragment.header start (Fragment.lastKind encrypted) :: piece) =
      c.conclude (Fragment.lastKind encrypted) ((c.reassembly.before start).grow piece) := by
  rw [receive_header c start _ h]
  cases (c.reassembly.before start).grow piece with
  | skipping buffer => rfl
  | collecting packet => simp only [conclude, if_neg (Fragment.lastKind_ne_notFinished encrypted)]

/-! ## Whole packets -/

/-- The fragments around some pieces lead to nothing of note before the last one, and the last one
is the end of all pieces together. -/
theorem receiveAll_wrap (c : Channel) (encrypted start : Bool) {pieces : List Bytes}
    (hne : pieces ≠ []) (hpieces : ∀ piece ∈ pieces, piece ≠ []) :
    ∃ quiet : List Received, (∀ r ∈ quiet, r.IsQuiet) ∧
      c.receiveAll (Fragment.wrap encrypted start pieces) =
        let last := c.conclude (Fragment.lastKind encrypted)
          ((c.reassembly.before start).growAll pieces)
        (last.1, quiet ++ [last.2]) := by
  induction pieces generalizing c start with
  | nil => exact absurd rfl hne
  | cons piece rest ih =>
      have hpiece := hpieces piece List.mem_cons_self
      cases rest with
      | nil =>
          refine ⟨[], by simp, ?_⟩
          simp only [Fragment.wrap, receiveAll, receive_header_lastKind c start encrypted hpiece,
            List.nil_append]
          rfl
      | cons next rest =>
          -- The rest is received by a channel that differs from `c` in the packet in progress.
          obtain ⟨quiet, hquiet, heq⟩ :=
            ih { c with reassembly := (c.reassembly.before start).grow piece } false (by simp)
              (fun p hp => hpieces p (List.mem_cons_of_mem _ hp))
          obtain ⟨hafter, hfirst⟩ := receive_header_notFinished c start hpiece
          refine ⟨(c.receive (Fragment.header start .notFinished :: piece)).2 :: quiet, ?_, ?_⟩
          · exact List.forall_mem_cons.mpr ⟨hfirst, hquiet⟩
          · rw [Fragment.wrap_cons_cons, receiveAll, hafter]
            simp only [heq, Reassembly.before_false, conclude_congr, List.cons_append,
              Reassembly.growAll_cons]

/-- The fragments of a packet lead to nothing of note before the last one, and the last one is the
end of what they have made of the buffer. -/
theorem receiveAll_split (c : Channel) (encrypted : Bool) {packet : Bytes} (h : packet ≠ []) :
    ∃ quiet : List Received, (∀ r ∈ quiet, r.IsQuiet) ∧
      c.receiveAll (Fragment.split encrypted packet) =
        let last := c.conclude (Fragment.lastKind encrypted) (Reassembly.ofPacket packet)
        (last.1, quiet ++ [last.2]) := by
  have hwrap := receiveAll_wrap c encrypted true (Fragment.pieces_ne_nil h)
    (fun piece hpiece => Fragment.ne_nil_of_mem_pieces hpiece)
  rw [Reassembly.before_true] at hwrap
  exact hwrap

/-- Fragments that are not last ones lead to nothing of note and leave the cipher alone. -/
theorem receiveAll_of_not_isLast (c : Channel) {fragments : List Bytes}
    (h : ∀ fragment ∈ fragments, Fragment.isLast fragment = false) :
    (∀ r ∈ (c.receiveAll fragments).2, r.IsQuiet) ∧
      (c.receiveAll fragments).1.cipher = c.cipher := by
  induction fragments generalizing c with
  | nil => simp [receiveAll]
  | cons fragment rest ih =>
      obtain ⟨hquiet, hcipher⟩ := receive_of_not_isLast c (h fragment List.mem_cons_self)
      obtain ⟨hrest, hkeeps⟩ :=
        ih (c.receive fragment).1 (fun f hf => h f (List.mem_cons_of_mem _ hf))
      constructor
      · intro r hr
        rcases List.mem_cons.mp hr with rfl | hr
        · exact hquiet
        · exact hrest r hr
      · exact hkeeps.trans hcipher

end Channel

end SmartLock
