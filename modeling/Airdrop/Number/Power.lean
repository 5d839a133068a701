/-!
# Powers

Powers of numbers are those of the core library wherever they are written, also in modules that know powers in monoids.
-/

attribute [instance (20000), default_instance 20000] instPowNat
