import SyncedConfig.Bytes.Basic

/-!
# Base64 text

Three octets become four characters of the standard alphabet. A last group of one
or two octets is filled up with zero bits and marked by `=` signs.
-/
namespace SyncedConfig.Base64

def digitChar (n : Nat) : Char :=
  if n < 26 then Char.ofNat (0x41 + n)
  else if n < 52 then Char.ofNat (0x61 + (n - 26))
  else if n < 62 then Char.ofNat (0x30 + (n - 52))
  else if n = 62 then '+'
  else '/'

/-- The four digits of a group of three octets, most significant first. -/
def group (a b c : UInt8) : Char × Char × Char × Char :=
  let bits := (a.toNat * 256 + b.toNat) * 256 + c.toNat
  (digitChar (bits / 262144), digitChar (bits / 4096 % 64), digitChar (bits / 64 % 64),
    digitChar (bits % 64))

def encode : Bytes → List Char
  | [] => []
  | [a] =>
    let (p, q, _, _) := group a 0 0
    [p, q, '=', '=']
  | [a, b] =>
    let (p, q, r, _) := group a b 0
    [p, q, r, '=']
  | a :: b :: c :: rest =>
    let (p, q, r, s) := group a b c
    p :: q :: r :: s :: encode rest

end SyncedConfig.Base64
