import Airdrop.Console.Basic
import Airdrop.Disk

/-!
# Desks

A `Desk` is a console in memory: its disk, what was printed and reported, the source of PINs, the seed of new keys and
the time. Commands run on it as in any other surroundings.
-/

namespace Airdrop.Console

/-- A console in memory. The PIN that is drawn next is the one that `pins` has for `nextPin`. -/
structure Desk where
  disk : Disk := {}
  printed : List Output := []
  reported : List (List Char) := []
  pins : Int → Int := id
  nextPin : Int := 0
  keySeed : Bytes := []
  time : String := ""

namespace Desk

def change (d : Desk) : Except FileFault Disk → Except FileFault Unit × Desk
  | .ok disk => (.ok (), { d with disk })
  | .error fault => (.error fault, d)

instance : MonadConsole (StateM Desk) where
  readFile p d := (d.disk.read p, d)
  writeFile p content d := d.change (d.disk.write p content)
  makeDirectory p d := d.change (d.disk.makeDirectory p)
  isPresent p d := ((d.disk.at? p).isSome, d)
  isDirectory p d := (d.disk.at? p == some .directory, d)
  print o d := ((), { d with printed := d.printed ++ [o] })
  report cs d := ((), { d with reported := d.reported ++ [cs] })
  drawPin d := (d.pins d.nextPin, { d with nextPin := d.nextPin + 1 })
  drawKeySeed d := (d.keySeed, d)
  now d := (d.time, d)

end Desk
end Airdrop.Console
