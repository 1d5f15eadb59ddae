/-!
# Random words

The Mersenne twister: a sequence of 32-bit words in which each is computed from three of the 624 before it,
and tempered before it is given out. `Twister.ofSeed` starts the sequence that belongs to an integer,
`Twister.unit` draws a float from zero to below one.
-/

namespace Flowchart.Position

/-- The last 624 words of the sequence, and the place of the oldest of them. -/
structure Twister where
  words : Vector UInt32 624
  oldest : Fin 624

namespace Twister

/-- Mixes the bits of a word before it is given out. -/
def temper (w : UInt32) : UInt32 :=
  let w := w ^^^ (w >>> 11)
  let w := w ^^^ ((w <<< 7) &&& 0x9D2C5680)
  let w := w ^^^ ((w <<< 15) &&& 0xEFC60000)
  w ^^^ (w >>> 18)

/-- The word that follows, from the oldest word, the one after it and the one 397 places after it. -/
def recur (oldest second far : UInt32) : UInt32 :=
  let joined := (oldest &&& 0x80000000) ||| (second &&& 0x7FFFFFFF)
  far ^^^ (joined >>> 1) ^^^ (if joined &&& 1 == 0 then 0 else 0x9908B0DF)

/-- The next word, which takes the place of the oldest one. -/
def next (t : Twister) : UInt32 × Twister :=
  let w := recur t.words[t.oldest] t.words[t.oldest + 1] t.words[t.oldest + 397]
  (temper w, ⟨t.words.set t.oldest w, t.oldest + 1⟩)

/-- A float from zero to below one, with 53 random bits from two words. -/
def unit (t : Twister) : Float × Twister :=
  let (a, t) := t.next
  let (b, t) := t.next
  (Float.ofNat ((a >>> 5).toNat * 67108864 + (b >>> 6).toNat) / 9007199254740992.0, t)

/-- The sequence after `n` floats have been drawn. -/
def drop : Nat → Twister → Twister
  | 0, t => t
  | n + 1, t => drop n t.unit.2

/-! ## Seeding -/

/-- Word number `i` of a spread sequence, from the word before it. -/
def spreadNext (last : UInt32) (i : Nat) : UInt32 :=
  (last ^^^ (last >>> 30)) * 1812433253 + UInt32.ofNat i

/-- The words that a single word spreads into: the word itself, then each from the one before. -/
def spread (seed : UInt32) : Vector UInt32 624 :=
  ((List.range 623).foldl (fun (p : Vector UInt32 624 × UInt32) i =>
    let w := spreadNext p.2 (i + 1)
    (p.1.setIfInBounds (i + 1) w, w)) (Vector.replicate 624 seed, seed)).1

/-- Replaces the word at a place by `change` of it and the word before, scrambled by `factor`, and moves on
to the next place. Place zero is passed over and takes the value of the last place. -/
def stir (factor : UInt32) (change : UInt32 → UInt32 → UInt32) (words : Vector UInt32 624)
    (place : Fin 624) : Vector UInt32 624 × Fin 624 :=
  let before := words[place - 1]
  let w := change words[place] ((before ^^^ (before >>> 30)) * factor)
  let words := words.set place w
  if place = 623 then (words.set 0 w, 1) else (words, place + 1)

/-- The base `2 ^ 32` digits of a number, least significant first; zero has one digit. -/
def wordsOf (n : Nat) : List UInt32 :=
  if n < UInt32.size then [UInt32.ofNat n]
  else UInt32.ofNat (n % UInt32.size) :: wordsOf (n / UInt32.size)
decreasing_by
  unfold UInt32.size at *
  omega

/-- The sequence that belongs to a row of words. -/
def ofWords (key : List UInt32) : Twister :=
  let addends := key.zipIdx.map fun (w, i) => w + UInt32.ofNat i
  let rounds := max 624 addends.length
  let cycle := (List.replicate (rounds / addends.length + 1) addends).flatten.take rounds
  let keyed := cycle.foldl (fun (words, place) addend =>
    stir 1664525 (fun w mixed => (w ^^^ mixed) + addend) words place) (spread 19650218, 1)
  let (words, _) := (List.range 623).foldl (fun (words, place) _ =>
    stir 1566083941 (fun w mixed => (w ^^^ mixed) - UInt32.ofNat place) words place) keyed
  ⟨words.set 0 0x80000000, 0⟩

/-- The sequence that belongs to an integer; its sign does not matter. -/
def ofSeed (seed : Int) : Twister := ofWords (wordsOf seed.natAbs)

end Twister

end Flowchart.Position
