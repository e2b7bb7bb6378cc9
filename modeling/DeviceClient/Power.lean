-- A power is that of the core library here, also in modules that import Mathlib, where it would be the
-- power of a monoid.
attribute [default_instance 20000, instance (high)] instPowNat
