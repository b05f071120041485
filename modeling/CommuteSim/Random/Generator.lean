import CommuteSim.Random.KeyStream

/-!
# The random generator and its draws

A generator hands out the words of a key stream one by one. Every draw is a function from a
generator to a value and the generator after it, so a draw depends on nothing but the state.
-/

namespace CommuteSim

/-- A key stream with the words of the current block that are still to be drawn. -/
structure Generator where
  key : List UInt32
  /-- The number of the block after the current one. -/
  number : UInt64
  ready : List UInt32
  deriving DecidableEq, Repr

namespace Generator

/-! ## Seeds -/

/-- The next state of the sequence that spreads a seed over a key. -/
def spread (s : UInt64) : UInt64 := s * 6364136223846793005 + 11634580027462260723

/-- The key word of a state: its high bits folded together and rotated by its highest five. -/
def keyWord (s : UInt64) : UInt32 :=
  let x := (((s >>> 18) ^^^ s) >>> 27).toUInt32
  let n := (s >>> 59).toUInt32
  (x >>> n) ||| (x <<< ((32 - n) % 32))

/-- The key words of a seed. -/
def keyWords : Nat → UInt64 → List UInt32
  | 0, _ => []
  | n + 1, s => let s := spread s; keyWord s :: keyWords n s

/-- The generator of a seed, before any draw. -/
def ofSeed (seed : UInt64) : Generator := ⟨keyWords 8 seed, 0, []⟩

/-! ## Draws -/

/-- The next word. -/
def word (g : Generator) : UInt32 × Generator :=
  match g.ready with
  | w :: rest => (w, { g with ready := rest })
  | [] =>
    let block := KeyStream.block g.key g.number
    (block.headD 0, { g with number := g.number + 1, ready := block.tail })

/-- The next two words as one, the low half first. -/
def doubleWord (g : Generator) : UInt64 × Generator :=
  let (low, g) := g.word
  let (high, g) := g.word
  ((high.toUInt64 <<< (32 : UInt64)) ||| low.toUInt64, g)

end Generator

/-! ## Numbers from words -/

/-- The float in `[0, 1)` that the upper 53 bits of a double word give. -/
def unitFloat (w : UInt64) : Float := (w >>> 11).toFloat * Float.ofBits 0x3CA0000000000000

/-- The float in `[a, b]` that the upper 52 bits of a double word give. -/
def floatBetween (a b : Float) (w : UInt64) : Float :=
  let fraction := Float.ofBits ((0x3FF0000000000000 : UInt64) ||| (w >>> 12)) - 1.0
  fraction * (b - a) + a

/-- The words of `width` bits that an index below a bound may need. -/
structure IndexDraw where
  /-- The bits of a word. -/
  width : Nat
  bound : Nat

namespace IndexDraw

/-- Small bounds take single words, others double words. -/
def below (bound : Nat) : IndexDraw := ⟨if bound < UInt32.size then 32 else 64, bound⟩

/-- The index that a first word gives, and whether a second word is needed to settle it. -/
def first (d : IndexDraw) (w : Nat) : Nat × Nat × Bool :=
  let product := w * d.bound
  let low := product % Nat.pow 2 d.width
  (product / Nat.pow 2 d.width, low, decide (Nat.pow 2 d.width - d.bound < low))

/-- The index after a second word: it moves up when the fractions overflow. -/
def settle (d : IndexDraw) (index low second : Nat) : Nat :=
  if Nat.pow 2 d.width ≤ low + second * d.bound / Nat.pow 2 d.width then index + 1 else index

end IndexDraw

namespace Generator

/-- A float in `[0, 1)`. -/
def float (g : Generator) : Float × Generator :=
  let (w, g) := g.doubleWord
  (unitFloat w, g)

/-- A float in `[a, b]`. -/
def floatIn (a b : Float) (g : Generator) : Float × Generator :=
  let (w, g) := g.doubleWord
  (floatBetween a b w, g)

/-- Several draws, one after the other. -/
def many {α : Type} (draw : Generator → α × Generator) : Nat → Generator → List α × Generator
  | 0, g => ([], g)
  | n + 1, g =>
    let (a, g) := draw g
    let (rest, g) := many draw n g
    (a :: rest, g)

/-- A word of the width of an index draw. -/
def wordOf (width : Nat) (g : Generator) : Nat × Generator :=
  if width = 32 then
    let (w, g) := g.word
    (w.toNat, g)
  else
    let (w, g) := g.doubleWord
    (w.toNat, g)

/-- An index below `bound`; below zero it is zero, without a draw. -/
def index (bound : Nat) (g : Generator) : Nat × Generator :=
  if bound = 0 then (0, g)
  else
    let d := IndexDraw.below bound
    let (w, g) := g.wordOf d.width
    let (i, low, unsettled) := d.first w
    if unsettled then
      let (w, g) := g.wordOf d.width
      (d.settle i low w, g)
    else (i, g)

end Generator

end CommuteSim
