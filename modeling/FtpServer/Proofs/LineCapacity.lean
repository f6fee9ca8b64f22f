import FtpServer.Proofs.LineReader
import FtpServer.Settings

/-!
# Room for a line

The reader takes room for one byte more than the settings allow, counted in 64 bits.  Every line that
is allowed fits, and is read however it is cut.  Only the largest limit of all has no room, since one
more than that is too many for 64 bits: no line is ever read under it.
-/

namespace FtpServer.Line

open Text

def largestLimit : UInt64 := UInt64.ofNat (UInt64.size - 1)

variable {most : UInt64} {limit : Limit} {bytes line rest segment : Bytes} {ds : List Delivery}
variable {chunk : Bytes} {more : List Bytes}

theorem below_largest_iff : most.toNat + 1 < UInt64.size ↔ most ≠ largestLimit := by
  have hlargest : largestLimit.toNat + 1 = UInt64.size := by decide
  have hmost : most.toNat < UInt64.size := most.toNat_lt
  rw [Ne, ← UInt64.toNat_inj]
  omega

theorem Limit.of?_eq_none_iff : Limit.of? most = none ↔ most = largestLimit := by
  by_cases hmost : most = largestLimit
  · have hroom : ¬ most.toNat + 1 < UInt64.size := fun h => below_largest_iff.1 h hmost
    rw [of?, dif_neg hroom]
    simp [hmost]
  · obtain ⟨limit, hof, -⟩ := Limit.exists_of? (below_largest_iff.2 hmost)
    simp [hof, hmost]

/-- After any chunks of a line, what is kept is what fits of all of them. -/
theorem foldl_add (limit : Limit) (bytes : Bytes) (chunks : List Bytes) :
    chunks.foldl (Partial.add limit) (.ofBytes limit bytes) =
      .ofBytes limit (bytes ++ chunks.flatten) := by
  induction chunks generalizing bytes with
  | nil => simp
  | cons chunk chunks ih =>
    rw [List.foldl_cons, add_ofBytes, ih, List.flatten_cons, List.append_assoc]

theorem length_kept_le (limit : Limit) (chunks : List Bytes) :
    (chunks.foldl (Partial.add limit) .fresh).kept.length ≤ limit.room.toNat := by
  rw [← ofBytes_nil, foldl_add]
  exact List.length_take_le _ _

theorem whole_of_fits (hfits : (dropReturn line).length ≤ most.toNat) :
    whole most line = .line (decode (dropReturn line)) := if_pos hfits

/-- Where a line ends in a chunk, the chunk begins with the rest of the line; where it does not, the
whole chunk belongs to the line. -/
theorem line_in_chunk (hline : lineFeed ∉ line) (h : chunk ++ segment = line ++ lineFeed :: rest) :
    (∃ after, chunk = line ++ lineFeed :: after ∧ rest = after ++ segment) ∨
      lineFeed ∉ chunk ∧ ∃ line', line = chunk ++ line' ∧ segment = line' ++ lineFeed :: rest := by
  rcases List.append_eq_append_iff.1 h with ⟨line', rfl, hsegment⟩ | ⟨ending, rfl, hrest⟩
  · exact .inr ⟨fun hmem => hline (List.mem_append_left _ hmem), line', rfl, hsegment⟩
  · cases ending with
    | nil =>
      rw [List.append_nil]
      exact .inr ⟨hline, [], by simp, by simpa using hrest.symm⟩
    | cons b after =>
      obtain ⟨rfl, rfl⟩ := List.cons.inj hrest
      exact .inl ⟨after, rfl, rfl⟩

/-- Wherever a line is cut, it is read as a whole, and the bytes behind its line feed are left. -/
theorem readFrom_line (hds : Nonempty ds) (hline : lineFeed ∉ line)
    (hsegments : segments ds = (line ++ lineFeed :: rest) :: more) :
    (readFrom limit (.ofBytes limit bytes) ds).1 = whole limit.most (bytes ++ line) ∧
      segments (readFrom limit (.ofBytes limit bytes) ds).2 = rest :: more ∧
      Nonempty (readFrom limit (.ofBytes limit bytes) ds).2 := by
  induction ds generalizing bytes line with
  | nil => simp [segments] at hsegments
  | cons d later ih =>
    have hlater : Nonempty later := fun chunk hchunk => hds chunk (List.mem_cons_of_mem d hchunk)
    cases d with
    | failure => simp [segments] at hsegments
    | bytes chunk =>
      obtain ⟨segment, more', hsegment⟩ := List.exists_cons_of_ne_nil (segments_ne_nil later)
      rw [segments_bytes hsegment] at hsegments
      obtain ⟨hfirst, rfl⟩ := List.cons.inj hsegments
      rw [readFrom, if_neg (hds chunk List.mem_cons_self)]
      rcases line_in_chunk hline hfirst with ⟨after, rfl, rfl⟩ | ⟨hchunk, line', rfl, rfl⟩
      · rw [feed_ofBytes_append hline]
        exact ⟨rfl, segments_putBack hsegment after, nonempty_putBack hlater after⟩
      · rw [feed_ofBytes hchunk, ← List.append_assoc]
        exact ih hlater (fun hmem => hline (List.mem_append_right _ hmem)) hsegment

theorem read_line (hds : Nonempty ds) (hline : lineFeed ∉ line)
    (hsegments : segments ds = (line ++ lineFeed :: rest) :: more) :
    (limit.read ds).1 = whole limit.most line ∧ segments (limit.read ds).2 = rest :: more ∧
      Nonempty (limit.read ds).2 := by
  have h := @readFrom_line limit [] line rest ds more hds hline hsegments
  rwa [ofBytes_nil] at h

/-- What stands behind the last line feed is read up to the end of the connection. -/
theorem readFrom_last (hds : Nonempty ds) (hline : lineFeed ∉ line)
    (hsegments : segments ds = [line]) :
    (readFrom limit (.ofBytes limit bytes) ds).1 =
      (Partial.ofBytes limit (bytes ++ line)).close limit := by
  induction ds generalizing bytes line with
  | nil =>
    obtain rfl := List.singleton_inj.1 hsegments
    rw [List.append_nil]
    rfl
  | cons d later ih =>
    have hlater : Nonempty later := fun chunk hchunk => hds chunk (List.mem_cons_of_mem d hchunk)
    cases d with
    | failure => exact absurd (List.cons.inj hsegments).2 (segments_ne_nil later)
    | bytes chunk =>
      obtain ⟨segment, more, hsegment⟩ := List.exists_cons_of_ne_nil (segments_ne_nil later)
      rw [segments_bytes hsegment] at hsegments
      obtain ⟨rfl, rfl⟩ := List.cons.inj hsegments
      obtain ⟨hchunk, hrest⟩ := List.forall_mem_append.1 fun b hb => ne_of_mem_of_not_mem hb hline
      rw [readFrom, if_neg (hds chunk List.mem_cons_self),
        feed_ofBytes fun hmem => hchunk _ hmem rfl, ← List.append_assoc]
      exact ih hlater (fun hmem => hrest _ hmem rfl) hsegment

theorem read_last (hds : Nonempty ds) (hline : lineFeed ∉ line) (hsegments : segments ds = [line]) :
    (limit.read ds).1 = if line = [] then .endOfStream else whole limit.most line := by
  have h := @readFrom_last limit [] line ds hds hline hsegments
  rw [ofBytes_nil, List.nil_append] at h
  rw [Limit.read, h, close_ofBytes]

/-- The lines before the first failure are read one after the other. -/
theorem getElem?_reads {i n : Nat} (hds : Nonempty ds) (hsegments : segments ds = segment :: more)
    (hline : (terminated segment)[i]? = some line) (hi : i < n) :
    (limit.reads n ds)[i]? = some (whole limit.most line) := by
  induction n generalizing ds segment i with
  | zero => exact absurd hi (Nat.not_lt_zero i)
  | succ n ih =>
    by_cases hfeed : lineFeed ∈ segment
    · obtain ⟨first, rest, rfl, hfirst⟩ := List.eq_append_cons_of_mem hfeed
      obtain ⟨hreport, hleft, hnonempty⟩ := @read_line limit first rest ds more hds hfirst hsegments
      rw [terminated_append hfirst] at hline
      cases i with
      | zero =>
        obtain rfl := Option.some.inj hline
        rw [Limit.reads, List.getElem?_cons_zero, hreport]
      | succ i =>
        rw [Limit.reads, List.getElem?_cons_succ]
        exact ih hnonempty hleft hline (Nat.lt_of_succ_lt_succ hi)
    · simp [terminated_line hfeed] at hline

/-- Under every limit but the largest number of all there is room for the limit and one byte more,
never more is kept of a line than that, and however the bytes of a connection are cut, every line
within the limit is read as it stands, up to the first failure.  Under the largest limit there is no
room, and nothing is ever read. -/
theorem lines_within_limit_read_unless_largest {i n : Nat}
    (hds : ∀ chunk, .bytes chunk ∈ ds → chunk ≠ []) (hsegments : segments ds = segment :: more)
    (hline : (terminated segment)[i]? = some line)
    (hfits : (dropReturn line).length ≤ most.toNat) (hi : i < n) :
    (most ≠ largestLimit → ∃ limit lines, Limit.of? most = some limit ∧
      limit.room.toNat = most.toNat + 1 ∧
      (∀ chunks : List Bytes,
        (chunks.foldl (Partial.add limit) .fresh).kept.length ≤ limit.room.toNat) ∧
      reads most n ds = some lines ∧ lines[i]? = some (.line (decode (dropReturn line)))) ∧
    (most = largestLimit →
      Limit.of? most = none ∧ read most ds = none ∧ reads most n ds = none) := by
  constructor
  · intro hmost
    obtain ⟨limit, hof, rfl⟩ := Limit.exists_of? (below_largest_iff.2 hmost)
    refine ⟨limit, limit.reads n ds, hof, limit.room_eq, length_kept_le limit, ?_, ?_⟩
    · rw [reads, hof, Option.map_some]
    · rw [getElem?_reads hds hsegments hline hi, whole_of_fits hfits]
  · intro hmost
    have hnone := Limit.of?_eq_none_iff.2 hmost
    exact ⟨hnone, by rw [read, hnone, Option.map_none], by rw [reads, hnone, Option.map_none]⟩

/-- Three lines in two reads; the last one is as long as it may be under a limit of four. -/
def threeLines : List Delivery := [.bytes (encode "PWD\r"), .bytes (encode "\n\r\nQUIT\r\n")]

theorem lines_within_limit_read_unless_largest_cut_anywhere :
    (∃ lines, reads 4 3 threeLines = some lines ∧ lines[2]? = some (.line "QUIT")) ∧
      reads largestLimit 3 threeLines = none := by
  have hds : ∀ chunk, .bytes chunk ∈ threeLines → chunk ≠ [] := by
    intro chunk hchunk
    simp only [threeLines, List.mem_cons, Delivery.bytes.injEq, List.not_mem_nil, or_false] at hchunk
    obtain rfl | rfl := hchunk <;> decide
  have hsegments : segments threeLines = [encode "PWD\r\n\r\nQUIT\r\n"] := by decide +kernel
  have hline : (terminated (encode "PWD\r\n\r\nQUIT\r\n"))[2]? = some (encode "QUIT\r") := by
    decide +kernel
  have hread := fun most hfits =>
    @lines_within_limit_read_unless_largest most _ _ _ _ 2 3 hds hsegments hline hfits (by decide)
  constructor
  · obtain ⟨limit, lines, -, -, -, hreads, hquit⟩ := (hread 4 (by decide)).1 (by decide)
    exact ⟨lines, hreads, hquit.trans (by decide +kernel)⟩
  · exact ((hread largestLimit (by decide +kernel)).2 rfl).2.2

/-- Settings with the largest limit are accepted, and no line reaches a session with them. -/
theorem no_line_read_under_largest_limit :
    ({ maxCommandLength := largestLimit } : Settings).check = .ok () ∧
      (encode "NOOP").length ≤ largestLimit.toNat ∧
      read largestLimit [.bytes (encode "NOOP\r\n")] = none :=
  ⟨rfl, by decide +kernel, by decide +kernel⟩

end FtpServer.Line
