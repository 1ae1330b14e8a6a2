/-
# AES-CMAC

The message authentication code of RFC 4493: the blocks are chained through the cipher, and
the last one is masked with one of two subkeys, according to whether it had to be padded.
-/
import SmartLock.Crypto.Aes

namespace SmartLock

/-- A key of sixteen bytes. -/
abbrev Key : Type := Octets 16

namespace Cmac

open Aes (Block)

/-- Twice a block as a polynomial over two elements, modulo x¹²⁸ + x⁷ + x² + x + 1. -/
def double (x : Block) : Block :=
  let v := ofBigEndian x.toBytes
  let shifted := 2 * v % (1 <<< 128)
  Block.ofBytes (bigEndian 16 (if v < 1 <<< 127 then shifted else shifted ^^^ 0x87))

/-- The last block, masked: a whole one with twice the encrypted zero block, a shorter one,
after a single one bit and zeros, with four times it. -/
def lastBlock (key : Block) (b : Bytes) : Block :=
  let subkey := double (Aes.encrypt key (Block.ofBytes []))
  if b.length = 16 then (Block.ofBytes b).xor subkey
  else (Block.ofBytes (b ++ [0x80])).xor (double subkey)

/-- The chain over the pieces of a message, continued from `acc`. -/
def chain (key acc : Block) : List Bytes → Block
  | [] => Aes.encrypt key (acc.xor (lastBlock key []))
  | [b] => Aes.encrypt key (acc.xor (lastBlock key b))
  | b :: rest => chain key (Aes.encrypt key (acc.xor (Block.ofBytes b))) rest

end Cmac

/-- The message authentication code of a message under a key. -/
def cmac (key : Key) (message : Bytes) : Key :=
  (Cmac.chain (Aes.Block.ofBytes key.toBytes) (Aes.Block.ofBytes []) (message.pieces 16)).toOctets

end SmartLock
