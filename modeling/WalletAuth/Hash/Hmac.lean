import WalletAuth.Hash.Sha256

/-! HMAC with SHA-256: two nested hashes under the key, padded to a block. -/

namespace WalletAuth.Hmac

/-- The key as one block: a long key is hashed first, a short one filled up with zero bytes. -/
def blockKey (key : Bytes) : Bytes :=
  let short := if key.length > 64 then Sha256.hash key else key
  short ++ List.replicate (64 - short.length) 0

def code (key message : Bytes) : Bytes :=
  let block := blockKey key
  Sha256.hash (block.map (· ^^^ 0x5c) ++ Sha256.hash (block.map (· ^^^ 0x36) ++ message))

/-- The second test case of RFC 4231. -/
example : code (Bytes.ofString "Jefe") (Bytes.ofString "what do ya want for nothing?") =
    Bytes.ofNat 32 0x5bdcc146bf60754e6a042426089575c75a003f089d2739839dec58b964ec3843 := by
  decide +kernel

end WalletAuth.Hmac
