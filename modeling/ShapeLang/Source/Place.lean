import ShapeLang.Text.Quoted

/-! Places in a source text. Positions count lines and characters from one, as a reader does; spans
are ranges of bytes. Offsets are 32-bit words: a range beyond them has no span, and the error names
its first bound that does not fit. -/

namespace ShapeLang

structure Position where
  line : UInt32
  column : UInt32
deriving DecidableEq, Repr

namespace Position

def start : Position := ⟨1, 1⟩

instance : Inhabited Position := ⟨start⟩

def render (position : Position) : String :=
  toString position.line.toNat ++ ":" ++ toString position.column.toNat

end Position

/-- A byte range; the byte at `stop` is outside. -/
structure Span where
  start : UInt32
  stop : UInt32
deriving DecidableEq, Repr, Inhabited

inductive SpanError where
  | startTooLarge (offset : Nat)
  | stopTooLarge (offset : Nat)
deriving DecidableEq, Repr

namespace SpanError

def message : SpanError → String
  | startTooLarge offset => "span start " ++ excess offset
  | stopTooLarge offset => "span end " ++ excess offset
where
  excess (offset : Nat) : String :=
    toString offset ++ " (0x" ++ Text.upperHex offset ++ ") exceeds u32::MAX (0xFFFFFFFF)"

end SpanError

namespace Span

def origin : Span := ⟨0, 0⟩

def hull (a b : Span) : Span := ⟨min a.start b.start, max a.stop b.stop⟩

def ofBounds (start stop : Nat) : Except SpanError Span :=
  if start < UInt32.size then
    if stop < UInt32.size then .ok ⟨.ofNat start, .ofNat stop⟩
    else .error (.stopTooLarge stop)
  else .error (.startTooLarge start)

def render (span : Span) : String :=
  toString span.start.toNat ++ ".." ++ toString span.stop.toNat

theorem ofBounds_of_lt {start stop : Nat} (hstart : start < UInt32.size)
    (hstop : stop < UInt32.size) :
    ofBounds start stop = .ok ⟨.ofNat start, .ofNat stop⟩ := by
  simp [ofBounds, hstart, hstop]

theorem hull_of_le {a b : Span} (hstart : a.start ≤ b.start) (hstop : a.stop ≤ b.stop) :
    a.hull b = ⟨a.start, b.stop⟩ := by
  have hmin : min a.start b.start = a.start := if_pos hstart
  have hmax : max a.stop b.stop = b.stop := if_pos hstop
  rw [hull, hmin, hmax]

theorem hull_self (a : Span) : a.hull a = a :=
  hull_of_le (UInt32.le_refl _) (UInt32.le_refl _)

end Span
end ShapeLang
