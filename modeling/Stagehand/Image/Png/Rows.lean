import Stagehand.Image
import Stagehand.Image.Png.Preface

/-!
# Rows

Each row is stored as differences to its neighbours; which neighbours is said by a byte in front of
the row. The samples of a row make pixels: grey is three equal channels, a place is looked up in the
table of colours, a missing opacity is full, of a wide sample the nearest narrow one is taken, and a
narrow one is stretched.
-/

namespace Stagehand.Png

/-! ## Differences -/

/-- Of the neighbours to the left, above and across, the one nearest to left + above - across. -/
def paeth (left above across : Nat) : Nat :=
  let guess : Int := left + above - across
  let far := fun (n : Nat) => (guess - n).natAbs
  if far left ≤ far above && far left ≤ far across then left
  else if far above ≤ far across then above
  else across

/-- What is added to a difference, by the kind of the row. -/
def predict? : UInt8 → Option (Nat → Nat → Nat → Nat)
  | 0 => some fun _ _ _ => 0
  | 1 => some fun left _ _ => left
  | 2 => some fun _ above _ => above
  | 3 => some fun left above _ => (left + above) / 2
  | 4 => some paeth
  | _ => none

/-- Undoes the differences of a row, with neighbours `step` bytes to the left and in the row
`previous` above. -/
def undo (predict : Nat → Nat → Nat → Nat) (step : Nat) (previous row : ByteArray) : ByteArray :=
  row.foldl (fun (done : ByteArray) b =>
    let place := done.size
    let near := fun (bytes : ByteArray) (i : Nat) => (bytes.data[i]?.getD 0).toNat
    let left := if step ≤ place then near done (place - step) else 0
    let across := if step ≤ place then near previous (place - step) else 0
    done.push (UInt8.ofNat (b.toNat + predict left (near previous place) across)))
    ByteArray.empty

/-- Undoes the differences of `n` rows of `size` bytes from a place on. Nothing comes of them if
there are fewer. -/
def rows (p : Preface) (size : Nat) (raw : ByteArray) :
    Nat → Nat → ByteArray → Except Fault (Option (List ByteArray))
  | 0, _, _ => .ok (some [])
  | n + 1, start, previous =>
    match raw.data[start]? with
    | none => .ok none
    | some kind =>
      if raw.size < start + 1 + size then .ok none
      else
        match predict? kind with
        | none => .error (.differences kind)
        | some predict =>
          if p.header.samples = .palette && p.palette.isNone then .error .noPalette
          else do
            let row := undo predict p.header.step previous
              (raw.extract (start + 1) (start + 1 + size))
            let rest ← rows p size raw n (start + 1 + size) row
            return rest.map (row :: ·)

/-- A pass and its rows. -/
abbrev Layer := Pass × Array ByteArray

/-- The rows of the passes from a place on. -/
def layers (p : Preface) (raw : ByteArray) : List Pass → Nat → Except Fault (Option (List Layer))
  | [], _ => .ok (some [])
  | pass :: rest, start => do
    let size := p.header.rowSize (pass.width p.header)
    let height := pass.height p.header
    match ← rows p size raw height start ByteArray.empty with
    | none => return none
    | some found =>
      let others ← layers p raw rest (start + height * (1 + size))
      return others.map ((pass, found.toArray) :: ·)

/-! ## Pixels -/

/-- The sample at a place of a row. -/
def sample (depth : Depth) (row : ByteArray) (i : Nat) : Nat :=
  let byte := fun i => (row.data[i]?.getD 0).toNat
  match depth with
  | .sixteen => byte (2 * i) * 256 + byte (2 * i + 1)
  | depth =>
    let bits := depth.bits
    (byte (i * bits / 8) >>> (8 - bits - i * bits % 8)) % (1 <<< bits)

/-- A sample as a channel. -/
def Depth.channel (depth : Depth) (sample : Nat) : UInt8 :=
  match depth with
  | .sixteen => UInt8.ofNat ((sample + 128) / 257)
  | depth => UInt8.ofNat (sample * (255 / ((1 <<< depth.bits) - 1)))

/-- The colour at a place of the table. Beyond its end is black, and shares of opacity count only if
there are no more of them than colours. -/
def Preface.entry (p : Preface) (place : Nat) : Pixel :=
  let table := p.palette.getD ByteArray.empty
  let byte := fun i => table.data[3 * place + i]?.getD 0
  let alpha := match p.transparency with
    | some (.shares bytes) =>
      if bytes.size ≤ table.size / 3 then bytes.data[place]?.getD 255 else 255
    | _ => 255
  if table.size < 3 * place + 3 then .black else ⟨byte 0, byte 1, byte 2, alpha⟩

/-- The opacity of a pixel of samples that tell none. -/
def Preface.opacity (p : Preface) (samples : List Nat) : UInt8 :=
  match p.transparency with
  | some (.key key) => if samples = key then 0 else 255
  | _ => 255

/-- The pixel in a column of a row. -/
def Preface.pixel (p : Preface) (row : ByteArray) (x : Nat) : Pixel :=
  let h := p.header
  let samples := (List.range h.samples.count).map fun i =>
    sample h.depth row (x * h.samples.count + i)
  let c := h.depth.channel
  match h.samples, samples with
  | .palette, [place] => p.entry place
  | .grey, [v] => ⟨c v, c v, c v, p.opacity samples⟩
  | .greyAlpha, [v, a] => ⟨c v, c v, c v, c a⟩
  | .colour, [r, g, b] => ⟨c r, c g, c b, p.opacity samples⟩
  | .colourAlpha, [r, g, b, a] => ⟨c r, c g, c b, c a⟩
  | _, _ => .black

/-- The pixel in a column and row of the image, in the pass that holds it. -/
def Preface.find (p : Preface) (layers : List Layer) (x y : Nat) : Pixel :=
  (layers.findSome? fun (pass, found) =>
    (pass.place? x y).map fun (column, row) =>
      p.pixel (found[row]?.getD ByteArray.empty) column).getD .black

/-- The image in rows as they are stored, if there are enough of them. -/
def Preface.image (p : Preface) (raw : ByteArray) : Except Fault (Option Image) := do
  let found ← layers p raw p.header.passes 0
  return found.map fun layers => Image.ofFn p.header.width p.header.height (p.find layers)

end Stagehand.Png
