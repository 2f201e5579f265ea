import AwsIotSdk.KeyValueText
import Mathlib.Data.List.DropRight

/-! The head of an HTTP request. Lines may end with a line feed alone, the names of the headers
are read without regard to case, and blanks around their values are left out. -/

namespace HttpHead

def cr : UInt8 := 0x0d
def lf : UInt8 := 0x0a
def tab : UInt8 := 0x09
def space : UInt8 := 0x20
def colon : UInt8 := 0x3a

structure Request where
  method : List UInt8
  target : List UInt8
  version : List UInt8
  headers : List (List UInt8 × List UInt8)
  deriving DecidableEq, Repr

def requestLine (r : Request) : List UInt8 := r.method ++ space :: (r.target ++ space :: r.version)

def headerLine (h : List UInt8 × List UInt8) : List UInt8 := h.1 ++ colon :: space :: h.2

def render (r : Request) : List UInt8 :=
  requestLine r ++ [cr, lf] ++ (r.headers.flatMap fun h => headerLine h ++ [cr, lf]) ++ [cr, lf]

def lower (c : UInt8) : UInt8 := if 0x41 ≤ c ∧ c ≤ 0x5a then c + 0x20 else c

def isBlank (c : UInt8) : Bool := c = space || c = tab

def strip (value : List UInt8) : List UInt8 := (value.dropWhile isBlank).rdropWhile isBlank

def dropCr (line : List UInt8) : List UInt8 := if line.getLast? = some cr then line.dropLast else line

def parseHeader (line : List UInt8) : List UInt8 × List UInt8 :=
  ((KeyValueText.cut colon line).1.map lower, strip (KeyValueText.cut colon line).2)

/-- There is no request before the empty line. -/
def parse (text : List UInt8) : Option Request :=
  match (text.splitOn lf).map dropCr with
  | [] => none
  | first :: rest =>
    match first.splitOn space with
    | [method, target, version] =>
      if rest.contains [] then some ⟨method, target, version, (rest.takeWhile (· ≠ [])).map parseHeader⟩
      else none
    | _ => none

structure HeaderFits (h : List UInt8 × List UInt8) : Prop where
  name : lf ∉ h.1 ∧ colon ∉ h.1
  value : lf ∉ h.2 ∧ strip h.2 = h.2

structure Fits (r : Request) : Prop where
  method : space ∉ r.method ∧ lf ∉ r.method
  target : space ∉ r.target ∧ lf ∉ r.target
  version : space ∉ r.version ∧ lf ∉ r.version
  headers : ∀ h ∈ r.headers, HeaderFits h

def normalize (r : Request) : Request :=
  { r with headers := r.headers.map fun h => (h.1.map lower, h.2) }

@[simp] theorem dropCr_append_cr (line : List UInt8) : dropCr (line ++ [cr]) = line := by
  simp [dropCr]

theorem strip_space_cons (value : List UInt8) : strip (space :: value) = strip value := by
  rw [strip, List.dropWhile_cons_of_pos (by decide), strip]

theorem parseHeader_headerLine {h : List UInt8 × List UInt8} (hfits : HeaderFits h) :
    parseHeader (headerLine h) = (h.1.map lower, h.2) := by
  have hline : headerLine h = KeyValueText.join colon (h.1, space :: h.2) := rfl
  have hcut : KeyValueText.cut colon (KeyValueText.join colon (h.1, space :: h.2)) =
      (h.1, space :: h.2) := KeyValueText.cut_join hfits.name.2
  rw [parseHeader, hline, hcut, strip_space_cons, hfits.value.2]

theorem headerLine_ne_nil (h : List UInt8 × List UInt8) : headerLine h ≠ [] := by
  simp [headerLine]

/-- The lines between the line feeds. -/
def lines (r : Request) : List (List UInt8) :=
  (requestLine r ++ [cr]) :: ((r.headers.map fun h => headerLine h ++ [cr]) ++ [[cr], []])

theorem render_eq (r : Request) : render r = [lf].intercalate (lines r) := by
  have hheaders : ∀ headers : List (List UInt8 × List UInt8),
      [lf].intercalate ((headers.map fun h => headerLine h ++ [cr]) ++ [[cr], []]) =
        (headers.flatMap fun h => headerLine h ++ [cr, lf]) ++ [cr, lf] := by
    intro headers
    induction headers with
    | nil => rfl
    | cons h headers ih =>
      rw [List.map_cons, List.cons_append, List.intercalate_cons_of_ne_nil (by simp), ih]
      simp
  rw [render, lines, List.intercalate_cons_of_ne_nil (by simp), hheaders]
  simp

theorem splitOn_render {r : Request} (h : Fits r) : (render r).splitOn lf = lines r := by
  rw [render_eq]
  refine List.splitOn_intercalate lf (fun l hl => ?_) (List.cons_ne_nil _ _)
  have hcr : lf ≠ cr := by decide
  have hspace : lf ≠ space := by decide
  have hcolon : lf ≠ colon := by decide
  rcases List.mem_cons.mp hl with rfl | hl
  · simp [requestLine, h.method.2, h.target.2, h.version.2, hcr, hspace]
  · rcases List.mem_append.mp hl with hl | hl
    · obtain ⟨header, hmem, rfl⟩ := List.mem_map.mp hl
      have hfits := h.headers header hmem
      simp [headerLine, hfits.name.1, hfits.value.1, hcr, hspace, hcolon]
    · simp only [List.mem_cons, List.not_mem_nil, or_false] at hl
      rcases hl with rfl | rfl
      · simpa using hcr
      · exact List.not_mem_nil

theorem splitOn_requestLine {r : Request} (h : Fits r) :
    (requestLine r).splitOn space = [r.method, r.target, r.version] := by
  rw [requestLine, List.splitOn_append_cons_self_of_not_mem h.method.1,
    List.splitOn_append_cons_self_of_not_mem h.target.1, List.splitOn_eq_singleton h.version.1]

/-- A request is read as it was put out. -/
theorem parse_render {r : Request} (h : Fits r) : parse (render r) = some (normalize r) := by
  have hlines : (lines r).map dropCr = requestLine r :: (r.headers.map headerLine ++ [[], []]) := by
    simp [lines, Function.comp_def, dropCr]
  have hparse : (r.headers.map headerLine).map parseHeader =
      r.headers.map fun h => (h.1.map lower, h.2) := by
    rw [List.map_map]
    exact List.map_congr_left fun header hmem => parseHeader_headerLine (h.headers header hmem)
  have htake : (r.headers.map headerLine ++ [[], []]).takeWhile (fun line => decide (line ≠ [])) =
      r.headers.map headerLine := by
    rw [List.takeWhile_append_of_pos]
    · simp
    · intro line hline
      obtain ⟨header, -, rfl⟩ := List.mem_map.mp hline
      simpa using headerLine_ne_nil header
  rw [parse, splitOn_render h, hlines]
  simp only [splitOn_requestLine h]
  rw [if_pos (by simp), htake, hparse]
  rfl

end HttpHead
