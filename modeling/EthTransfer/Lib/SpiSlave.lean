import Mathlib.Data.Nat.Basic

/-!
# A slave on a serial bus

The slave of a synchronous serial bus in mode 0, with words of any width.  While it is
selected it samples the line of the master at each rising edge of the clock, and it drives
the next bit of its own word at each falling edge, the most significant one first.  What it
sends depends in any way on what it has received.

* `Slave.observe` is what it does when the lines change, and `Link.move` changes them.
* `Link.Receiving` says where a frame stands.  Its lemmas are the moves of a master: it
  selects the slave, lowers and raises the clock, and lets the slave go.
* `Frame.after` is a frame with some bits of the next word exchanged, and `sample_after` is one
  bit more.
-/

namespace SpiSlave

/-- The levels of the lines that the master drives. -/
structure Lines where
  cs : Bool
  sck : Bool
  mosi : Bool

/-- What has been exchanged since the slave is selected: whole words, each with the one that
the slave has sent meanwhile, and the bits that it has received of the next one. -/
structure Frame (w : ℕ) where
  words : List (BitVec w × BitVec w)
  bits : List Bool

/-- A slave: the word that it sends, given the frames before and the words of this one, the
frames that have ended, the one that has not, and the level of its line. -/
structure Slave (w : ℕ) where
  reply : List (Frame w) → List (BitVec w) → BitVec w
  frames : List (Frame w)
  frame : Option (Frame w)
  miso : Bool

variable {w : ℕ}

/-! ## Frames -/

/-- The word with these bits, the most significant one first. -/
def ofBits (bits : List Bool) : BitVec w := (BitVec.ofBoolListBE bits).setWidth w

/-- The first `n` bits of a word. -/
def firstBits (word : BitVec w) (n : ℕ) : List Bool := (List.range n).map word.getMsbD

theorem length_firstBits (word : BitVec w) (n : ℕ) : (firstBits word n).length = n := by
  simp [firstBits]

theorem firstBits_succ (word : BitVec w) (n : ℕ) :
    firstBits word n ++ [word.getMsbD n] = firstBits word (n + 1) := by
  simp [firstBits, List.range_succ]

theorem ofBits_firstBits (word : BitVec w) : ofBits (firstBits word w) = word := by
  apply BitVec.eq_of_getLsbD_eq
  intro i hi
  have hlt : w - 1 - i < w := by omega
  have hbit : (firstBits word w).getD (w - 1 - i) false = word.getMsbD (w - 1 - i) := by
    simp [firstBits, List.getD, hlt]
  rw [ofBits, BitVec.getLsbD_setWidth, BitVec.getLsbD_ofBoolListBE, length_firstBits, hbit,
    BitVec.getLsbD_eq_getMsbD]
  simp [hi]

namespace Frame

/-- A frame that has just begun. -/
def empty : Frame w := ⟨[], []⟩

/-- The words that the slave has received. -/
def received (frame : Frame w) : List (BitVec w) := frame.words.map Prod.fst

/-- The words that it has sent. -/
def sent (frame : Frame w) : List (BitVec w) := frame.words.map Prod.snd

/-- One word more in both directions. -/
def push (frame : Frame w) (received sent : BitVec w) : Frame w :=
  ⟨frame.words ++ [(received, sent)], []⟩

/-- The slave samples a bit while it sends a word. -/
def sample (frame : Frame w) (word : BitVec w) (bit : Bool) : Frame w :=
  let bits := frame.bits ++ [bit]
  if bits.length < w then { frame with bits := bits } else frame.push (ofBits bits) word

/-- The frame when `n` bits of the next word have been exchanged. -/
def after (frame : Frame w) (received sent : BitVec w) (n : ℕ) : Frame w :=
  if n < w then { frame with bits := firstBits received n } else frame.push received sent

variable {frame : Frame w} {received sent : BitVec w} {n : ℕ}

theorem after_zero (received sent : BitVec w) (hw : 0 < w) (hbits : frame.bits = []) :
    frame.after received sent 0 = frame := by
  rw [after, if_pos hw]
  cases frame
  simp only at hbits
  simp [firstBits, hbits]

theorem after_self : frame.after received sent w = frame.push received sent :=
  if_neg (lt_irrefl w)

theorem received_after (hn : n < w) : (frame.after received sent n).received = frame.received := by
  rw [after, if_pos hn, Frame.received, Frame.received]

theorem length_bits_after (hn : n < w) : (frame.after received sent n).bits.length = n := by
  rw [after, if_pos hn, length_firstBits]

/-- One bit more. -/
theorem sample_after (hn : n < w) :
    (frame.after received sent n).sample sent (received.getMsbD n) =
      frame.after received sent (n + 1) := by
  have hbits : (frame.after received sent n).bits ++ [received.getMsbD n] =
      firstBits received (n + 1) := by
    rw [after, if_pos hn, firstBits_succ]
  unfold sample
  dsimp only
  rw [hbits, length_firstBits]
  by_cases hlast : n + 1 < w
  · rw [if_pos hlast, after, after, if_pos hn, if_pos hlast]
  · obtain rfl : w = n + 1 := by omega
    rw [if_neg hlast, after, after, if_pos hn, if_neg hlast, ofBits_firstBits]
    rfl

end Frame

/-! ## The slave -/

namespace Slave

/-- The word that the slave is sending. -/
def word (slave : Slave w) (frame : Frame w) : BitVec w :=
  slave.reply slave.frames frame.received

/-- What the slave does when the lines change. -/
def observe (slave : Slave w) (before after : Lines) : Slave w :=
  if before.cs = after.cs then
    match slave.frame with
    | none => slave
    | some frame =>
      match before.sck, after.sck with
      | false, true =>
        { slave with frame := some (frame.sample (slave.word frame) after.mosi) }
      | true, false => { slave with miso := (slave.word frame).getMsbD frame.bits.length }
      | _, _ => slave
  else if after.cs then
    { slave with frames := slave.frames ++ slave.frame.toList, frame := none }
  else { slave with frame := some .empty }

end Slave

/-- The lines and the slave at their end. -/
structure Link (w : ℕ) where
  lines : Lines
  slave : Slave w

namespace Link

variable {link : Link w}

/-- The master sets the lines. -/
def move (link : Link w) (lines : Lines) : Link w := ⟨lines, link.slave.observe link.lines lines⟩

theorem move_self (link : Link w) : link.move link.lines = link := by
  obtain ⟨⟨cs, sck, mosi⟩, ⟨reply, frames, frame, miso⟩⟩ := link
  cases frame <;> cases sck <;> simp [move, Slave.observe]

/-- The slave is selected.  It has been `start` before, and `frame` is what has been exchanged
since then. -/
structure Receiving (link : Link w) (start : Slave w) (frame : Frame w) : Prop where
  cs : link.lines.cs = false
  reply : link.slave.reply = start.reply
  frames : link.slave.frames = start.frames
  frame : link.slave.frame = some frame

/-- The master selects the slave. -/
theorem select (hcs : link.lines.cs = true) {lines : Lines} (hselect : lines.cs = false) :
    (link.move lines).Receiving link.slave .empty := by
  have hne : link.lines.cs ≠ lines.cs := by simp [hcs, hselect]
  have hslave : (link.move lines).slave = { link.slave with frame := some .empty } := by
    rw [move, Slave.observe, if_neg hne, if_neg (ne_true_of_eq_false hselect)]
  exact ⟨hselect, by rw [hslave], by rw [hslave], by rw [hslave]⟩

namespace Receiving

variable {start : Slave w} {frame : Frame w} {lines : Lines}

theorem word (h : link.Receiving start frame) : link.slave.word frame = start.word frame := by
  rw [Slave.word, Slave.word, h.reply, h.frames]

/-- What the selected slave does. -/
theorem observe (h : link.Receiving start frame) (hcs : lines.cs = false) :
    (link.move lines).slave =
      match link.lines.sck, lines.sck with
      | false, true =>
        { link.slave with frame := some (frame.sample (start.word frame) lines.mosi) }
      | true, false =>
        { link.slave with miso := (start.word frame).getMsbD frame.bits.length }
      | _, _ => link.slave := by
  have hsame : link.lines.cs = lines.cs := h.cs.trans hcs.symm
  simp only [move, Slave.observe, if_pos hsame, h.frame, h.word]

/-- The master lowers the clock, or sets its line while the clock is low. -/
theorem lower (h : link.Receiving start frame) (hcs : lines.cs = false)
    (hsck : lines.sck = false) : (link.move lines).Receiving start frame := by
  have hslave := h.observe hcs
  rw [hsck] at hslave
  cases hbefore : link.lines.sck <;> rw [hbefore] at hslave <;>
    exact ⟨hcs, by rw [hslave]; exact h.reply, by rw [hslave]; exact h.frames,
      by rw [hslave]; exact h.frame⟩

/-- When the clock falls, the slave drives its next bit. -/
theorem miso_lower (h : link.Receiving start frame) (hcs : lines.cs = false)
    (hsck : lines.sck = false) (hbefore : link.lines.sck = true) :
    (link.move lines).slave.miso = (start.word frame).getMsbD frame.bits.length := by
  rw [h.observe hcs, hbefore, hsck]

/-- The master raises the clock. -/
theorem raise (lines : Lines) (h : link.Receiving start frame) (hcs : lines.cs = false)
    (hsck : lines.sck = true) (hbefore : link.lines.sck = false) :
    (link.move lines).Receiving start (frame.sample (start.word frame) lines.mosi) ∧
      (link.move lines).slave.miso = link.slave.miso := by
  have hslave := h.observe hcs
  rw [hsck, hbefore] at hslave
  refine ⟨⟨hcs, ?_, ?_, ?_⟩, ?_⟩ <;> rw [hslave]
  · exact h.reply
  · exact h.frames

/-- The master lets the slave go. -/
theorem release (h : link.Receiving start frame) (hcs : lines.cs = true) :
    (link.move lines).slave =
      { link.slave with frames := start.frames ++ [frame], frame := none } := by
  have hne : link.lines.cs ≠ lines.cs := by simp [hcs, h.cs]
  rw [move, Slave.observe, if_neg hne, if_pos hcs, h.frame, h.frames]
  rfl

end Receiving

/-- A slave that is not selected does not care about the clock. -/
theorem idle (hframe : link.slave.frame = none) {lines : Lines}
    (hcs : link.lines.cs = lines.cs) : (link.move lines).slave = link.slave := by
  simp [move, Slave.observe, hcs, hframe]

end Link

end SpiSlave
