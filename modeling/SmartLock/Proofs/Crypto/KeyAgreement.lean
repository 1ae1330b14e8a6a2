/-
# Key agreement

The public key of every private key writes a point of the curve, and any two parties come to the
same secret, each with its private key and the other's public key (`PrivateKey.sharedSecret_comm`):
both multiply the generator by both private keys.
-/
import SmartLock.Crypto.KeyPair
import SmartLock.Proofs.Crypto.Group

namespace SmartLock

open Curve

/-! ## Public keys -/

/-- A coordinate can be read back from its 32 bytes. -/
theorem ofBigEndian_bigEndian_of_lt {x : Nat} (h : x < p) : ofBigEndian (bigEndian 32 x) = x := by
  rw [ofBigEndian_bigEndian]
  exact Nat.mod_eq_of_lt (h.trans (by decide))

/-- A public key writes the affine coordinates of its point. -/
theorem PublicKey.point?_ofPoint (u : Point) :
    (ofPoint u).point? = Point.ofAffine? u.affine.1 u.affine.2 := by
  have hx : (Octets.ofBytes 32 (bigEndian 32 u.affine.1)).toBytes = bigEndian 32 u.affine.1 :=
    Octets.toBytes_ofBytes (length_bigEndian ..)
  have hy : (Octets.ofBytes 32 (bigEndian 32 u.affine.2)).toBytes = bigEndian 32 u.affine.2 :=
    Octets.toBytes_ofBytes (length_bigEndian ..)
  have hbytes : (ofPoint u).toBytes = bigEndian 32 u.affine.1 ++ bigEndian 32 u.affine.2 := by
    rw [← hx, ← hy]
    rfl
  obtain ⟨hfst, hsnd⟩ := Point.affine_lt u
  rw [point?, hbytes, List.take_left' (length_bigEndian ..), List.drop_left' (length_bigEndian ..),
    ofBigEndian_bigEndian_of_lt hfst, ofBigEndian_bigEndian_of_lt hsnd]

namespace PrivateKey

/-- The factor is small enough for the multiplication. -/
theorem factor_lt (k : PrivateKey) : k.factor < 2 ^ 256 := k.lt_order.trans (by decide)

/-- The public key writes the generator times the private key. -/
theorem exists_point?_publicKey (k : PrivateKey) {generator : Group}
    (h : Point.base.Represents generator) :
    ∃ u, k.publicKey.point? = some u ∧ u.Represents (k.factor • generator) := by
  have hne : k.factor • generator ≠ 0 := by
    intro hzero
    rw [← addOrderOf_dvd_iff_nsmul_eq_zero, Point.addOrderOf_of_represents_base h] at hzero
    exact Nat.not_dvd_of_pos_of_lt k.pos k.lt_order hzero
  rw [publicKey, PublicKey.point?_ofPoint]
  exact (h.smul k.factor_lt).ofAffine?_affine hne

/-- It writes a point. -/
theorem isSome_point?_publicKey (k : PrivateKey) : k.publicKey.point?.isSome = true := by
  obtain ⟨generator, h⟩ := Point.exists_represents_base
  obtain ⟨u, hu, -⟩ := k.exists_point?_publicKey h
  rw [hu]
  rfl

/-- The owners of two private keys come to the same secret. -/
theorem sharedSecret_comm (a b : PrivateKey) :
    a.sharedSecret b.publicKey = b.sharedSecret a.publicKey := by
  obtain ⟨generator, h⟩ := Point.exists_represents_base
  obtain ⟨u, hu, hpointA⟩ := a.exists_point?_publicKey h
  obtain ⟨v, hv, hpointB⟩ := b.exists_point?_publicKey h
  have hab := hpointB.smul a.factor_lt
  have hba := hpointA.smul b.factor_lt
  rw [smul_comm] at hba
  rw [sharedSecret, sharedSecret, hu, hv]
  dsimp only
  rw [hab.affine_fst_eq hba]

/-! ## Shared keys -/

/-- Whoever has a private key has a key in common with the owner of a public key that writes a
point. -/
theorem exists_sharedKey_of_isSome (k : PrivateKey) {peer : PublicKey}
    (h : peer.point?.isSome = true) : ∃ shared, k.sharedKey peer = .ok shared := by
  obtain ⟨u, hu⟩ := Option.isSome_iff_exists.mp h
  rw [sharedKey, sharedSecret, hu]
  exact ⟨_, rfl⟩

/-- The owners of two private keys have a key in common. -/
theorem sharedKey_comm (a b : PrivateKey) :
    a.sharedKey b.publicKey = b.sharedKey a.publicKey := by
  rw [sharedKey, sharedKey, sharedSecret_comm]

end PrivateKey

end SmartLock
