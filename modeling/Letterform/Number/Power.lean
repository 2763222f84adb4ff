/-!
Powers of natural numbers. The definitions of this library write `^` for the
power by repeated multiplication, also where a power in some monoid is in scope.
-/

namespace Letterform

@[reducible] def naturalPower : Pow Nat Nat := instPowNat

end Letterform
