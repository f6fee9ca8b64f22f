import FtpServer.Line
import FtpServer.Text.Split

/-!
# The line reader reads lines

However the bytes of a connection are cut into reads, and whatever becomes of a read that fails, the
reader reports the lines of the bytes between two failures.  It keeps one byte more of a line than
it may report, which is exactly enough to tell a carriage return at the end from a byte too many.
-/

namespace FtpServer.Line

open Text

def whole (limit : UInt64) (line : Bytes) : Incoming :=
  if (dropReturn line).length ≤ limit.toNat then .line (decode (dropReturn line))
  else .tooLong (decode ((dropReturn line).take limit.toNat))

/-- The bytes between two failures, however they were cut. -/
def segments : List Delivery → List Bytes
  | [] => [[]]
  | .failure :: rest => [] :: segments rest
  | .bytes chunk :: rest =>
    match segments rest with
    | [] => [chunk]
    | segment :: more => (chunk ++ segment) :: more

theorem segments_ne_nil (ds : List Delivery) : segments ds ≠ [] := by
  cases ds with
  | nil => simp [segments]
  | cons d rest =>
    cases d with
    | failure => simp [segments]
    | bytes chunk =>
      simp only [segments]
      split <;> simp

/-- What stands before each line feed, and what stands behind the last one. -/
def terminated (bytes : Bytes) : List Bytes := (split lineFeed bytes).dropLast

def unterminated (bytes : Bytes) : Bytes := (split lineFeed bytes).getLast (split_ne_nil _ _)

/-- A failure discards what no line feed has ended; at the end that is a line like any other. -/
def report (limit : UInt64) : List Bytes → List Incoming
  | [] => []
  | [last] => (terminated last).map (whole limit) ++
      (if unterminated last = [] then [] else [whole limit (unterminated last)]) ++ [.endOfStream]
  | segment :: more =>
      (terminated segment).map (whole limit) ++ .endOfStream :: report limit more

/-- What `n` reads one after the other come to. -/
def Limit.reads (limit : Limit) : Nat → List Delivery → List Incoming
  | 0, _ => []
  | n + 1, ds => (limit.read ds).1 :: limit.reads n (limit.read ds).2

def reads (most : UInt64) (n : Nat) (ds : List Delivery) : Option (List Incoming) :=
  (Limit.of? most).map fun limit => limit.reads n ds

section Split

variable {line rest : Bytes}

theorem terminated_line (h : lineFeed ∉ line) : terminated line = [] := by
  simp [terminated, split_of_not_mem h]

theorem unterminated_line (h : lineFeed ∉ line) : unterminated line = line := by
  simp [unterminated, split_of_not_mem h]

theorem terminated_append (h : lineFeed ∉ line) :
    terminated (line ++ lineFeed :: rest) = line :: terminated rest := by
  rw [terminated, split_append_sep, split_of_not_mem h, List.singleton_append,
    List.dropLast_cons_of_ne_nil (split_ne_nil _ _), terminated]

theorem unterminated_append (h : lineFeed ∉ line) :
    unterminated (line ++ lineFeed :: rest) = unterminated rest := by
  simp only [unterminated, split_append_sep, split_of_not_mem h, List.singleton_append]
  rw [List.getLast_cons (split_ne_nil _ _)]

end Split

theorem Limit.of?_eq_some_iff {most : UInt64} {limit : Limit} :
    Limit.of? most = some limit ↔ limit.most = most := by
  constructor
  · intro h
    rw [of?] at h
    split at h
    next => exact Option.some.inj h ▸ rfl
    next => cases h
  · rintro rfl
    have hroom : limit.most.toNat + 1 < UInt64.size := limit.room_eq ▸ limit.room.toNat_lt
    obtain ⟨most, room, room_eq⟩ := limit
    rw [of?, dif_pos hroom, Option.some.injEq, Limit.mk.injEq]
    refine ⟨rfl, UInt64.toNat_inj.1 ?_⟩
    rw [room_eq, UInt64.toNat_add]
    exact Nat.mod_eq_of_lt hroom

theorem Limit.exists_of? {most : UInt64} (h : most.toNat + 1 < UInt64.size) :
    ∃ limit, Limit.of? most = some limit ∧ limit.most = most := by
  have hof : Limit.of? most = some _ := dif_pos h
  exact ⟨_, hof, of?_eq_some_iff.1 hof⟩

section Kept

variable {limit : Limit} {bytes chunk : Bytes}

def Partial.ofBytes (limit : Limit) (bytes : Bytes) : Partial :=
  ⟨bytes.take limit.room.toNat, limit.room.toNat < bytes.length⟩

@[simp] theorem ofBytes_nil (limit : Limit) : Partial.ofBytes limit [] = .fresh := by
  simp [Partial.ofBytes, Partial.fresh]

theorem add_ofBytes (limit : Limit) (bytes chunk : Bytes) :
    (Partial.ofBytes limit bytes).add limit chunk = .ofBytes limit (bytes ++ chunk) := by
  unfold Partial.add Partial.ofBytes
  generalize limit.room.toNat = n
  simp only [List.length_take, List.length_append, List.take_append, Partial.mk.injEq]
  constructor
  · congr 2
    omega
  · have hroom : (n < bytes.length ∨ n - min n bytes.length < chunk.length) ↔
        n < bytes.length + chunk.length := by omega
    simp [← hroom]

theorem length_dropReturn (line : Bytes) :
    (dropReturn line).length = line.length ∨ (dropReturn line).length + 1 = line.length := by
  unfold dropReturn
  split
  next hlast =>
    right
    have hne : line ≠ [] := by
      rintro rfl
      cases hlast
    have hpos := List.length_pos_iff.2 hne
    rw [List.length_dropLast]
    omega
  next => exact .inl rfl

/-- A carriage return that is dropped stands behind all that may be reported. -/
theorem take_dropReturn {line : Bytes} {n : Nat} (h : n < line.length) :
    (dropReturn line).take n = line.take n := by
  unfold dropReturn
  split
  next =>
    rw [List.dropLast_eq_take, List.take_take]
    congr 1
    omega
  next => rfl

theorem finish_ofBytes (line : Bytes) :
    (Partial.ofBytes limit line).finish limit = whole limit.most line := by
  have hlength := length_dropReturn line
  have hroom := limit.room_eq
  by_cases hlong : limit.room.toNat < line.length
  · have hkept : limit.most.toNat < (line.take limit.room.toNat).length := by
      rw [List.length_take]
      omega
    have hwhole : ¬ (dropReturn line).length ≤ limit.most.toNat := by omega
    simp only [Partial.finish, Partial.ofBytes, whole, hlong, hwhole, decide_true, true_or, if_true,
      if_false, take_dropReturn hkept]
    rw [take_dropReturn (by omega), List.take_take, Nat.min_eq_left (by omega)]
  · have hkept : line.take limit.room.toNat = line := List.take_of_length_le (by omega)
    simp only [Partial.finish, Partial.ofBytes, whole, hlong, hkept, decide_false, Bool.false_eq_true,
      false_or]
    by_cases hfits : (dropReturn line).length ≤ limit.most.toNat
    · rw [if_neg (by omega), if_pos hfits, List.take_of_length_le hfits]
    · rw [if_pos (by omega), if_neg hfits]

end Kept

section Read

variable {limit : Limit} {bytes chunk line rest : Bytes} {ds : List Delivery}

def Nonempty (ds : List Delivery) : Prop := ∀ chunk, .bytes chunk ∈ ds → chunk ≠ []

theorem close_ofBytes (limit : Limit) (bytes : Bytes) : (Partial.ofBytes limit bytes).close limit =
    if bytes = [] then .endOfStream else whole limit.most bytes := by
  unfold Partial.close
  rw [finish_ofBytes]
  by_cases hnil : bytes = []
  · subst hnil
    rw [ofBytes_nil]
    rfl
  · have hkept : (Partial.ofBytes limit bytes).kept ≠ [] := by
      simp [Partial.ofBytes, hnil, limit.room_eq]
    rw [if_neg hkept, if_neg hnil]

theorem bne_lineFeed (h : lineFeed ∉ line) : ∀ b ∈ line, (b != lineFeed) = true := by
  intro b hb
  simp only [bne_iff_ne]
  rintro rfl
  exact h hb

/-- A chunk without a line feed goes on with the line, and one with a line feed ends it. -/
theorem feed_ofBytes (hchunk : lineFeed ∉ chunk) :
    (Partial.ofBytes limit bytes).feed limit chunk = .more (.ofBytes limit (bytes ++ chunk)) := by
  have hall := bne_lineFeed hchunk
  have htake : chunk.takeWhile (· != lineFeed) = chunk := by
    rw [← List.append_nil chunk, List.takeWhile_append_of_pos hall, List.takeWhile_nil]
  have hdrop : chunk.dropWhile (· != lineFeed) = [] := by
    rw [← List.append_nil chunk, List.dropWhile_append_of_pos hall, List.dropWhile_nil]
  simp only [Partial.feed, htake, hdrop, add_ofBytes]

theorem feed_ofBytes_append (hline : lineFeed ∉ line) :
    (Partial.ofBytes limit bytes).feed limit (line ++ lineFeed :: rest) =
      .ended (whole limit.most (bytes ++ line)) rest := by
  have hall := bne_lineFeed hline
  have htake : (line ++ lineFeed :: rest).takeWhile (· != lineFeed) = line := by
    simp [List.takeWhile_append_of_pos hall]
  have hdrop : (line ++ lineFeed :: rest).dropWhile (· != lineFeed) = lineFeed :: rest := by
    simp [List.dropWhile_append_of_pos hall]
  simp only [Partial.feed, htake, hdrop, add_ofBytes, finish_ofBytes]

theorem segments_bytes {segment : Bytes} {more : List Bytes} (h : segments ds = segment :: more)
    (chunk : Bytes) : segments (.bytes chunk :: ds) = (chunk ++ segment) :: more := by
  simp [segments, h]

theorem segments_putBack {segment : Bytes} {more : List Bytes} (h : segments ds = segment :: more)
    (after : Bytes) : segments (putBack after ds) = (after ++ segment) :: more := by
  unfold putBack
  split
  next hnil => rw [hnil, List.nil_append, h]
  next => exact segments_bytes h after

theorem nonempty_putBack (hds : Nonempty ds) (after : Bytes) : Nonempty (putBack after ds) := by
  unfold putBack
  split
  next => exact hds
  next hafter =>
    intro chunk hchunk
    rcases List.mem_cons.1 hchunk with heq | hold
    · obtain rfl := Delivery.bytes.inj heq
      exact hafter
    · exact hds chunk hold

/-- What the bytes before the first failure say about the next report, and what is left. -/
inductive Reads (limit : UInt64) (bytes : Bytes) : List Bytes → Incoming → List Bytes → Prop
  | line {line rest : Bytes} {more : List Bytes} (hline : lineFeed ∉ line) :
      Reads limit bytes ((line ++ lineFeed :: rest) :: more) (whole limit (bytes ++ line))
        (rest :: more)
  | tail {last : Bytes} (hlast : lineFeed ∉ last) :
      Reads limit bytes [last]
        (if bytes ++ last = [] then .endOfStream else whole limit (bytes ++ last)) [[]]
  | failure {lost : Bytes} {more : List Bytes} (hlost : lineFeed ∉ lost) (hmore : more ≠ []) :
      Reads limit bytes (lost :: more) .endOfStream more

theorem Reads.later {limit : UInt64} {segment : Bytes} {more left : List Bytes} {r : Incoming}
    (hchunk : lineFeed ∉ chunk) (h : Reads limit (bytes ++ chunk) (segment :: more) r left) :
    Reads limit bytes ((chunk ++ segment) :: more) r left := by
  have hboth : ∀ {line : Bytes}, lineFeed ∉ line → lineFeed ∉ chunk ++ line :=
    fun hline hmem => (List.mem_append.1 hmem).elim hchunk hline
  cases h with
  | @line line rest _ hline =>
    rw [← List.append_assoc, List.append_assoc bytes]
    exact .line (hboth hline)
  | tail hlast =>
    rw [List.append_assoc]
    exact .tail (hboth hlast)
  | failure hlost hmore => exact .failure (hboth hlost) hmore

theorem readFrom_reads (hds : Nonempty ds) :
    Reads limit.most bytes (segments ds) (readFrom limit (.ofBytes limit bytes) ds).1
        (segments (readFrom limit (.ofBytes limit bytes) ds).2) ∧
      Nonempty (readFrom limit (.ofBytes limit bytes) ds).2 := by
  induction ds generalizing bytes with
  | nil =>
    have htail := @Reads.tail limit.most bytes [] (by simp)
    rw [List.append_nil] at htail
    rw [readFrom, close_ofBytes]
    exact ⟨htail, hds⟩
  | cons d rest ih =>
    have hrest : Nonempty rest := fun chunk hchunk => hds chunk (List.mem_cons_of_mem d hchunk)
    cases d with
    | failure =>
      rw [readFrom]
      exact ⟨.failure (by simp) (segments_ne_nil rest), hrest⟩
    | bytes chunk =>
      have hne := hds chunk List.mem_cons_self
      obtain ⟨segment, more, hsegments⟩ := List.exists_cons_of_ne_nil (segments_ne_nil rest)
      rw [segments_bytes hsegments, readFrom, if_neg hne]
      by_cases hfeed : lineFeed ∈ chunk
      · obtain ⟨line, after, rfl, hline⟩ := List.eq_append_cons_of_mem hfeed
        rw [feed_ofBytes_append hline, segments_putBack hsegments, List.append_assoc,
          List.cons_append]
        exact ⟨.line hline, nonempty_putBack hrest after⟩
      · rw [feed_ofBytes hfeed]
        obtain ⟨hreads, hleft⟩ := @ih (bytes ++ chunk) hrest
        rw [hsegments] at hreads
        exact ⟨hreads.later hfeed, hleft⟩

end Read

section All

variable {limit : UInt64} {ds : List Delivery} {line last rest : Bytes} {more : List Bytes}

theorem report_line (limit : UInt64) (more : List Bytes) (hline : lineFeed ∉ line) :
    report limit ((line ++ lineFeed :: rest) :: more) =
      whole limit line :: report limit (rest :: more) := by
  cases more with
  | nil => simp [report, terminated_append hline, unterminated_append hline]
  | cons next more => simp [report, terminated_append hline]

theorem report_tail (limit : UInt64) (hlast : lineFeed ∉ last) (hne : last ≠ []) :
    report limit [last] = whole limit last :: report limit [[]] := by
  have hnothing : terminated [] = [] ∧ unterminated [] = [] := ⟨rfl, rfl⟩
  simp [report, terminated_line hlast, unterminated_line hlast, hne, hnothing]

@[simp] theorem report_nothing (limit : UInt64) : report limit [[]] = [.endOfStream] := by
  simp [report, terminated, unterminated]

theorem report_failure (limit : UInt64) (hlost : lineFeed ∉ last) (hmore : more ≠ []) :
    report limit (last :: more) = .endOfStream :: report limit more := by
  cases more with
  | nil => exact absurd rfl hmore
  | cons next more => simp [report, terminated_line hlost]

theorem take_append_replicate {α : Type} (l : List α) (a : α) (n : Nat) :
    (l ++ List.replicate (n + 1) a).take n = (l ++ List.replicate n a).take n := by
  rw [List.replicate_succ', ← List.append_assoc, List.take_append_of_le_length]
  rw [List.length_append, List.length_replicate]
  omega

theorem whole_ne_endOfStream (limit : UInt64) (line : Bytes) : whole limit line ≠ .endOfStream := by
  unfold whole
  split <;> simp

theorem read_reads (limit : Limit) (hds : Nonempty ds) :
    Reads limit.most [] (segments ds) (limit.read ds).1 (segments (limit.read ds).2) ∧
      Nonempty (limit.read ds).2 := by
  have h := @readFrom_reads limit [] ds hds
  rwa [ofBytes_nil] at h

/-- What is read is the first thing to be reported, and the rest is what is left to report. -/
theorem Reads.report {segs left : List Bytes} {r : Incoming} (h : Reads limit [] segs r left)
    (n : Nat) : (Line.report limit segs ++ List.replicate (n + 1) Incoming.endOfStream).take (n + 1) =
      r :: (Line.report limit left ++ List.replicate n Incoming.endOfStream).take n := by
  cases h with
  | line hline =>
    rw [report_line limit _ hline, List.cons_append, List.take_succ_cons, take_append_replicate]
    rfl
  | @tail last hlast =>
    rw [List.nil_append]
    by_cases hnil : last = []
    · rw [hnil, if_pos rfl, report_nothing, List.cons_append, List.take_succ_cons, List.nil_append]
      rfl
    · rw [if_neg hnil, report_tail limit hlast hnil, List.cons_append, List.take_succ_cons,
        take_append_replicate]
  | failure hlost hmore =>
    rw [report_failure limit hlost hmore, List.cons_append, List.take_succ_cons,
      take_append_replicate]

theorem Limit.reads_eq (limit : Limit) (hds : Nonempty ds) (n : Nat) :
    limit.reads n ds =
      (report limit.most (segments ds) ++ List.replicate n Incoming.endOfStream).take n := by
  induction n generalizing ds with
  | zero => rfl
  | succ n ih =>
    obtain ⟨hreads, hleft⟩ := read_reads limit hds
    rw [reads, ih hleft, hreads.report]

theorem Limit.readAll_nil (limit : Limit) (n : Nat) :
    limit.readAll n [] = List.replicate n Incoming.endOfStream := by
  induction n with
  | zero => rw [readAll, List.replicate_zero]
  | succ n ih => rw [readAll, dif_pos rfl, ih, List.replicate_succ]

/-- Read until the stream has ended once for every failure, once at its end and `k` times more,
everything that is to be reported comes out, and nothing else. -/
theorem Limit.readAll_eq (limit : Limit) (hds : Nonempty ds) (k : Nat) :
    limit.readAll ((segments ds).length + k) ds =
      report limit.most (segments ds) ++ List.replicate k Incoming.endOfStream := by
  induction hsize : size ds using Nat.strongRecOn generalizing ds k with
  | ind n ih =>
    by_cases hnil : ds = []
    · subst hnil
      rw [readAll_nil, segments, report_nothing, List.length_singleton, Nat.add_comm,
        List.replicate_succ, List.singleton_append]
    · obtain ⟨hreads, hleft⟩ := read_reads limit hds
      have hnext := fun k => ih _ (hsize ▸ size_read_lt limit hnil) hleft k rfl
      have hread : ∀ n, limit.readAll (n + 1) ds = (limit.read ds).1 ::
          limit.readAll (if (limit.read ds).1 = .endOfStream then n else n + 1)
            (limit.read ds).2 := fun n => by rw [readAll, dif_neg hnil]
      generalize segments ds = segs at hreads ⊢
      generalize (limit.read ds).1 = r at hreads hread
      generalize segments (limit.read ds).2 = left at hreads hnext
      cases hreads with
      | @line line rest more hline =>
        rw [List.nil_append] at hread
        have hsame := hnext k
        rw [List.length_cons, Nat.add_right_comm] at hsame
        rw [List.length_cons, Nat.add_right_comm, hread, if_neg (whole_ne_endOfStream _ line),
          report_line _ more hline, List.cons_append, hsame]
      | @tail last hlast =>
        rw [List.nil_append] at hread
        rw [List.length_singleton, Nat.add_comm, hread]
        have hsame := hnext k
        rw [List.length_singleton, Nat.add_comm, report_nothing] at hsame
        by_cases hempty : last = []
        · rw [hempty, if_pos rfl, if_pos rfl, report_nothing, List.singleton_append]
          cases k with
          | zero => rw [readAll, List.replicate_zero]
          | succ k =>
            have hone := hnext k
            rw [List.length_singleton, Nat.add_comm, report_nothing] at hone
            rw [hone, List.replicate_succ, List.singleton_append]
        · rw [if_neg hempty, if_neg (whole_ne_endOfStream _ last), hsame,
            report_tail _ hlast hempty, report_nothing, List.cons_append]
          rfl
      | failure hlost hmore =>
        rw [List.length_cons, Nat.add_right_comm, hread, if_pos rfl, hnext,
          report_failure _ hlost hmore, List.cons_append]

/-- However its bytes are cut, what is read of a connection is the report of its lines. -/
theorem reads_lines {limit : UInt64} {ds : List Delivery} (hlimit : limit.toNat + 1 < UInt64.size)
    (hds : ∀ chunk, .bytes chunk ∈ ds → chunk ≠ []) :
    (∀ n, reads limit n ds =
      some ((report limit (segments ds) ++ List.replicate n Incoming.endOfStream).take n)) ∧
    ∀ k, readAll limit ((segments ds).length + k) ds =
      some (report limit (segments ds) ++ List.replicate k Incoming.endOfStream) := by
  obtain ⟨limit, hof, rfl⟩ := Limit.exists_of? hlimit
  refine ⟨fun n => ?_, fun k => ?_⟩
  · rw [reads, hof, Option.map_some, limit.reads_eq hds]
  · rw [readAll, hof, Option.map_some, limit.readAll_eq hds]

/-- A line of as many bytes as there may be and one of a byte too many, both cut before their ends,
and a tail that a failure takes away. -/
theorem reads_lines_at_the_limit :
    reads 4 5 [.bytes (encode "USER\r"), .bytes (encode "\nUSERS"), .bytes (encode "\r\nQU"), .failure,
      .bytes (encode "NOOP")] =
        some [.line "USER", .tooLong "USER", .endOfStream, .line "NOOP", .endOfStream] := by
  refine ((reads_lines (by decide) fun chunk hchunk => ?_).1 5).trans (by decide +kernel)
  simp only [List.mem_cons, Delivery.bytes.injEq, reduceCtorEq, List.not_mem_nil, or_false,
    false_or] at hchunk
  obtain rfl | rfl | rfl | rfl := hchunk <;> decide

end All

end FtpServer.Line
