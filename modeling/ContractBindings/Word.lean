/-!
# Words

How many values a machine word of a given number of bits has. The numbers are written out, so that
they compare by evaluation alone.
-/

namespace ContractBindings.Word

/-- The number of values of 16 bits. -/
def count16 : Nat := 65536

/-- The number of values of 31 bits. -/
def count31 : Nat := 2147483648

/-- The number of values of 32 bits. -/
def count32 : Nat := 4294967296

/-- The number of values of 63 bits. -/
def count63 : Nat := 9223372036854775808

/-- The number of values of 64 bits. -/
def count64 : Nat := 18446744073709551616

end ContractBindings.Word
