/-! Arithmetic modulo a number, on representatives below it. -/
namespace ZoneCatalog.Modular

/-- The difference of two numbers below the modulus. -/
def sub (m a b : Nat) : Nat := (a + (m - b % m)) % m

/-- The bits of a number below `2 ^ count`, the most significant first. -/
def bits (count n : Nat) : List Bool := (List.range count).reverse.map n.testBit

/-- A power, by squaring along the bits of the exponent. -/
def pow (m base exponent : Nat) : Nat :=
  (bits (Nat.log2 exponent + 1) exponent).foldl (fun acc bit =>
    let squared := acc * acc % m
    if bit then squared * base % m else squared) (1 % m)

/-- The inverse modulo a prime, zero for zero. -/
def inverse (p a : Nat) : Nat := pow p a (p - 2)

end ZoneCatalog.Modular
