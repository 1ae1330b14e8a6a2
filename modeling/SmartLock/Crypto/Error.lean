/-
# Failures of cryptographic operations
-/

namespace SmartLock

/-- Why a cryptographic operation failed. -/
inductive CryptoError where
  | keyNotPrepared
  | encrypt
  | decrypt
  | tooShort (size : Nat)
  | invalidPrivateKey
  | invalidPublicKey
  | noKeypair
  deriving DecidableEq, Repr

/-- The text that tells a user what failed. -/
def CryptoError.message : CryptoError → String
  | .keyNotPrepared => "Session key not prepared"
  | .encrypt => "AEAD encryption failed"
  | .decrypt => "AEAD authentication failed"
  | .tooShort size => s!"Encrypted message too short: {size} bytes"
  | .invalidPrivateKey => "Invalid private key"
  | .invalidPublicKey => "Invalid public key"
  | .noKeypair => "Keypair not generated"

end SmartLock
