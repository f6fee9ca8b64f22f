import FtpServer.Text.Lossy

/-!
# Reading control lines

A control line ends at a line feed and may carry one carriage return before it.  No more than
`limit` bytes of a line are kept: the rest is discarded up to the line feed and the line is
reported as too long.  The connection delivers its bytes in reads of any size, and a read may fail.

The room for a line is counted in 64 bits, and the sum is checked.  The largest limit of all leaves
no room, and a reader with it stops the session before it has read anything.
-/

namespace FtpServer.Line

open Text

/-- What one read of the connection brings; an empty one means that nothing follows. -/
inductive Delivery
  | bytes (chunk : Bytes)
  | failure
  deriving DecidableEq, Repr

inductive Incoming
  | line (text : String)
  | tooLong (kept : String)
  | endOfStream
  deriving DecidableEq, Repr

def lineFeed : UInt8 := 10
def carriageReturn : UInt8 := 13

structure Partial where
  kept : Bytes
  overflow : Bool
  deriving DecidableEq, Repr

def Partial.fresh : Partial := ⟨[], false⟩

/-- A bound on the bytes of a line, and the room for them and a carriage return. -/
structure Limit where
  most : UInt64
  room : UInt64
  room_eq : room.toNat = most.toNat + 1

/-- Nothing if the room is no number of 64 bits. -/
def Limit.of? (most : UInt64) : Option Limit :=
  if h : most.toNat + 1 < UInt64.size then
    some ⟨most, most + 1, by rw [UInt64.toNat_add]; exact Nat.mod_eq_of_lt h⟩
  else none

def Partial.add (limit : Limit) (p : Partial) (chunk : Bytes) : Partial :=
  let room := limit.room.toNat - p.kept.length
  ⟨p.kept ++ chunk.take room, p.overflow || room < chunk.length⟩

/-- `bytes` without a carriage return at the end. -/
def dropReturn (bytes : Bytes) : Bytes :=
  if bytes.getLast? = some carriageReturn then bytes.dropLast else bytes

def Partial.finish (limit : Limit) (p : Partial) : Incoming :=
  let line := dropReturn p.kept
  let text := decode (line.take limit.most.toNat)
  if p.overflow ∨ limit.most.toNat < line.length then .tooLong text else .line text

def Partial.close (limit : Limit) (p : Partial) : Incoming :=
  if p.kept = [] then .endOfStream else p.finish limit

inductive Fed
  /-- The line goes on. -/
  | more (p : Partial)
  /-- The line ended, with bytes behind it. -/
  | ended (line : Incoming) (after : Bytes)
  deriving DecidableEq, Repr

def Partial.feed (limit : Limit) (p : Partial) (chunk : Bytes) : Fed :=
  let p := p.add limit (chunk.takeWhile (· != lineFeed))
  match chunk.dropWhile (· != lineFeed) with
  | [] => .more p
  | _ :: after => .ended (p.finish limit) after

/-- What is left to read of a chunk that held a line feed. -/
def putBack (after : Bytes) (rest : List Delivery) : List Delivery :=
  if after = [] then rest else .bytes after :: rest

/-- The next line, after `p` of it has been read, and the deliveries that it leaves. -/
def readFrom (limit : Limit) (p : Partial) : List Delivery → Incoming × List Delivery
  | [] => (p.close limit, [])
  | .failure :: rest => (.endOfStream, rest)
  | .bytes chunk :: rest =>
    if chunk = [] then (p.close limit, rest)
    else
      match p.feed limit chunk with
      | .more p => readFrom limit p rest
      | .ended line after => (line, putBack after rest)

def Limit.read (limit : Limit) (deliveries : List Delivery) : Incoming × List Delivery :=
  readFrom limit .fresh deliveries

/-- The next line and the deliveries that it leaves; nothing where there is no room for any line. -/
def read (most : UInt64) (deliveries : List Delivery) : Option (Incoming × List Delivery) :=
  (Limit.of? most).map fun limit => limit.read deliveries

def size : List Delivery → Nat
  | [] => 0
  | .failure :: rest => 1 + size rest
  | .bytes chunk :: rest => 1 + chunk.length + size rest

@[simp] theorem size_putBack_le (after : Bytes) (rest : List Delivery) :
    size (putBack after rest) ≤ 1 + after.length + size rest := by
  unfold putBack
  split <;> simp_all [size]

theorem length_after_lt {limit : Limit} {p : Partial} {chunk after : Bytes} {line : Incoming}
    (h : p.feed limit chunk = .ended line after) : after.length < chunk.length := by
  have hlen : (chunk.dropWhile (· != lineFeed)).length ≤ chunk.length :=
    (List.dropWhile_suffix _).length_le
  unfold Partial.feed at h
  split at h
  next => simp at h
  next b rest hrest =>
    obtain ⟨-, rfl⟩ := (Fed.ended.injEq ..).mp h
    rw [hrest, List.length_cons] at hlen
    omega

theorem size_readFrom_le (limit : Limit) (p : Partial) (ds : List Delivery) :
    size (readFrom limit p ds).2 ≤ size ds := by
  fun_induction readFrom limit p ds with
  | case1 => simp [size]
  | case2 => simp [size]
  | case3 => simp [size]
  | case4 p chunk rest _ _ _ ih => simp only [size]; omega
  | case5 p chunk rest _ line after h =>
    have := length_after_lt h
    have := size_putBack_le after rest
    simp only [size]
    omega

theorem size_read_lt (limit : Limit) {ds : List Delivery} (h : ds ≠ []) :
    size (limit.read ds).2 < size ds := by
  unfold Limit.read
  cases ds with
  | nil => exact absurd rfl h
  | cons d rest =>
    cases d with
    | failure => simp [readFrom, size]
    | bytes chunk =>
      simp only [readFrom]
      split
      next => simp only [size]; omega
      next =>
        split
        next p _ =>
          have := size_readFrom_le limit p rest
          simp only [size]
          omega
        next line after hfed =>
          have := length_after_lt hfed
          have := size_putBack_le after rest
          simp only [size]
          omega

@[simp] theorem read_nil (limit : Limit) : limit.read [] = (.endOfStream, []) := rfl

/-- Every line up to and including the end of stream reported for the `ends`-th time. -/
def Limit.readAll (limit : Limit) (ends : Nat) (ds : List Delivery) : List Incoming :=
  match ends with
  | 0 => []
  | n + 1 =>
    if h : ds = [] then .endOfStream :: limit.readAll n []
    else
      let next := limit.read ds
      next.1 :: limit.readAll (if next.1 = .endOfStream then n else n + 1) next.2
termination_by (size ds, ends)
decreasing_by
  · simp_wf; subst h; exact Prod.Lex.right _ (by omega)
  · exact Prod.Lex.left _ _ (size_read_lt limit h)

/-- The same under any limit; nothing where there is no room for any line. -/
def readAll (most : UInt64) (ends : Nat) (ds : List Delivery) : Option (List Incoming) :=
  (Limit.of? most).map fun limit => limit.readAll ends ds

end FtpServer.Line
