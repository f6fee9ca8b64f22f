import FtpServer.Proofs.LineReader
import FtpServer.Proofs.Utf8
import FtpServer.Reply

/-!
# Framed replies are read back

A client reads the lines that reach it and ends a reply at the first line whose fourth byte is a
space.  However many replies were sent and whatever their texts, it finds the same replies again;
of a text only the ends of its lines may have been other than plain line feeds.
-/

namespace FtpServer.Reply

open Text

/-- A text with plain line ends: without one carriage return before each line feed and at the end,
and without one line feed at the end. -/
def tidy : List Char → List Char
  | [] => []
  | ['\n'] => []
  | ['\r'] => []
  | ['\r', '\n'] => []
  | '\r' :: '\n' :: rest => '\n' :: tidy rest
  | c :: rest => c :: tidy rest

def codeOf? (line : Bytes) : Option Nat := readNat (decode (line.take 3)).toList

def space : UInt8 := 32

/-- The replies that some lines come to, after the texts of lines before them. -/
def collect? (texts : List Bytes) : List Bytes → Option (List Reply)
  | [] => if texts = [] then some [] else none
  | line :: rest =>
    match line.drop 3 with
    | [] => none
    | mark :: text =>
      if mark = space then do
        let code ← codeOf? line
        let replies ← collect? [] rest
        return ⟨code, decode (join Line.lineFeed (texts ++ [text]))⟩ :: replies
      else collect? (texts ++ [text]) rest

/-- The replies that a client finds in bytes; they have to end with a line. -/
def receive? (bytes : Bytes) : Option (List Reply) :=
  if Line.unterminated bytes = [] then collect? [] ((Line.terminated bytes).map Line.dropReturn)
  else none

section Lines

variable {c : Char} {cs rest : List Char}

theorem mem_of_mem_dropFinal {d : Char} (h : d ∈ dropFinal c cs) : d ∈ cs := by
  unfold dropFinal at h
  split at h
  next => exact List.dropLast_subset cs h
  next => exact h

theorem not_mem_lines {line : List Char} (h : line ∈ lines cs) : '\n' ∉ line := by
  obtain ⟨part, hpart, rfl⟩ := List.mem_map.1 h
  exact fun hmem => not_mem_of_mem_split hpart (mem_of_mem_dropFinal hmem)

theorem lines_ne_nil (cs : List Char) : lines cs ≠ [] := by
  simp [lines, split_ne_nil]

theorem dropFinal_cons {d : Char} (hrest : rest ≠ []) :
    dropFinal c (d :: rest) = d :: dropFinal c rest := by
  obtain ⟨e, rest, rfl⟩ := List.exists_cons_of_ne_nil hrest
  simp only [dropFinal, List.getLast?_cons_cons, List.dropLast_cons_cons]
  split <;> rfl

theorem dropFinal_of_ne {d : Char} (h : d ≠ c) : ∃ more, dropFinal c (d :: rest) = d :: more := by
  cases rest with
  | nil => exact ⟨[], by simp [dropFinal, h]⟩
  | cons e rest => exact ⟨_, dropFinal_cons (List.cons_ne_nil e rest)⟩

theorem split_cons {sep : Char} (h : c ≠ sep) (rest : List Char) :
    ∃ part parts, split sep rest = part :: parts ∧
      split sep (c :: rest) = (c :: part) :: parts := by
  obtain ⟨part, parts, hparts⟩ := List.exists_cons_of_ne_nil (split_ne_nil sep rest)
  exact ⟨part, parts, hparts, by simp [split, h, hparts]⟩

theorem lines_lineFeed (hrest : rest ≠ []) : lines ('\n' :: rest) = [] :: lines rest := by
  rw [lines, dropFinal_cons hrest, split_sep]
  rfl

theorem lines_return_lineFeed (hrest : rest ≠ []) :
    lines ('\r' :: '\n' :: rest) = [] :: lines rest := by
  rw [lines, dropFinal_cons (List.cons_ne_nil '\n' rest), dropFinal_cons hrest]
  rfl

/-- A character that is not part of a line's end goes into the first line. -/
theorem lines_cons (hc : c ≠ '\n') (hrest : rest ≠ [])
    (hreturn : c = '\r' → ∀ more, rest ≠ '\n' :: more) :
    ∃ line more, lines rest = line :: more ∧ lines (c :: rest) = (c :: line) :: more := by
  obtain ⟨part, parts, hparts, hcons⟩ := split_cons hc (dropFinal '\n' rest)
  refine ⟨dropFinal '\r' part, parts.map (dropFinal '\r'), by rw [lines, hparts]; rfl, ?_⟩
  rw [lines, dropFinal_cons hrest, hcons, List.map_cons]
  congr 1
  by_cases hpart : part = []
  · -- Then `rest` begins with a line feed, so `c` is no carriage return.
    have hc : c ≠ '\r' := fun heq => by
      obtain ⟨d, rest, rfl⟩ := List.exists_cons_of_ne_nil hrest
      have hd : d ≠ '\n' := fun hd => hreturn heq rest (by rw [hd])
      obtain ⟨more, hmore⟩ : ∃ more, dropFinal '\n' (d :: rest) = d :: more := dropFinal_of_ne hd
      obtain ⟨part', parts', -, hcons'⟩ := split_cons hd more
      rw [hmore, hcons', hpart] at hparts
      cases (List.cons.inj hparts).1
    subst hpart
    simp [dropFinal, hc]
  · exact dropFinal_cons hpart

theorem join_cons {sep : Char} {line : List Char} {more : List (List Char)} (h : more ≠ []) :
    join sep (line :: more) = line ++ sep :: join sep more := by
  obtain ⟨next, more, rfl⟩ := List.exists_cons_of_ne_nil h
  rfl

theorem join_cons_cons (sep : Char) (line : List Char) (more : List (List Char)) :
    join sep ((c :: line) :: more) = c :: join sep (line :: more) := by
  cases more <;> rfl

theorem join_lines (cs : List Char) : join '\n' (lines cs) = tidy cs := by
  fun_induction tidy cs with
  | case1 => rfl
  | case2 => rfl
  | case3 => rfl
  | case4 => rfl
  | case5 rest hrest ih =>
    rw [lines_return_lineFeed hrest, join_cons (lines_ne_nil rest), ih]
    rfl
  | case6 c rest hfeed hreturn hboth hreturns ih =>
    by_cases hc : c = '\n'
    · subst hc
      rw [lines_lineFeed (fun h => hfeed rfl h), join_cons (lines_ne_nil rest), ih]
      rfl
    · by_cases hrest : rest = []
      · subst hrest
        have hc' : c ≠ '\r' := fun h => hreturn h rfl
        simp [lines, dropFinal, hc, hc', split, join, tidy]
      · obtain ⟨line, more, hlines, hcons⟩ := lines_cons hc hrest fun h rest h' => hreturns rest h h'
        rw [hcons, join_cons_cons, ← hlines, ih]

end Lines

section Codes

variable {n : Nat} {c : Char}

theorem ascii_of_isDigit (h : isDigit c) : c.toNat < 128 := by
  simp only [isDigit, Bool.and_eq_true, decide_eq_true_eq, Char.le_def, UInt32.le_iff_toNat_le] at h
  exact Nat.lt_of_le_of_lt h.2 (by decide)

theorem length_digits (h : 100 ≤ n) (h' : n ≤ 999) : (digits n).length = 3 := by
  have hle : (digits n).length ≤ 3 :=
    (Nat.length_toDigits_le_iff (by decide) (by decide)).2 (Nat.lt_succ_of_le h')
  have hlt : ¬ (digits n).length ≤ 2 := fun hle =>
    Nat.not_lt.2 h ((Nat.length_toDigits_le_iff (by decide) (by decide)).1 hle)
  omega

theorem padded_eq_digits (h : 100 ≤ n) (h' : n ≤ 999) : padded 3 n = digits n := by
  rw [padded, length_digits h h']
  rfl

theorem length_utf8_digits (h : 100 ≤ n) (h' : n ≤ 999) : (utf8 (digits n)).length = 3 := by
  rw [length_utf8 fun c hc => ascii_of_isDigit (isDigit_of_mem_digits hc), length_digits h h']

theorem codeOf_digits (h : 100 ≤ n) (h' : n ≤ 999) (rest : Bytes) :
    codeOf? (utf8 (digits n) ++ rest) = some n := by
  rw [codeOf?, List.take_left' (length_utf8_digits h h'), decode_utf8, String.toList_ofList,
    readNat_digits]

end Codes

section Wire

variable {code : List Char} {row : List Char} {rs ls : List (List Char)} {rest : Bytes}

def rows (code : List Char) : List (List Char) → List (List Char)
  | [] => []
  | [line] => [code ++ ' ' :: line]
  | line :: rest => (code ++ '-' :: line) :: rows code rest

theorem frameLines_eq (code : List Char) (ls : List (List Char)) :
    frameLines code ls = (rows code ls).flatMap (· ++ ['\r', '\n']) := by
  fun_induction rows code ls with
  | case1 => rfl
  | case2 line => simp [frameLines]
  | case3 line rest hrest ih =>
    rw [frameLines, ih, List.flatMap_cons, List.append_assoc]
    exact hrest

theorem exists_of_mem_rows (h : row ∈ rows code ls) :
    ∃ mark line, row = code ++ mark :: line ∧ mark ≠ '\n' ∧ line ∈ ls := by
  fun_induction rows code ls with
  | case1 => cases h
  | case2 line =>
    exact ⟨' ', line, List.mem_singleton.1 h, by decide, List.mem_singleton_self line⟩
  | case3 line rest hrest ih =>
    rcases List.mem_cons.1 h with rfl | h
    · exact ⟨'-', line, rfl, by decide, List.mem_cons_self ..⟩
    · obtain ⟨mark, line', hrow, hmark, hline⟩ := ih h
      exact ⟨mark, line', hrow, hmark, List.mem_cons_of_mem _ hline⟩

theorem not_mem_rows (hcode : '\n' ∉ code) (hls : ∀ line ∈ ls, '\n' ∉ line)
    (h : row ∈ rows code ls) : '\n' ∉ row := by
  obtain ⟨mark, line, rfl, hmark, hline⟩ := exists_of_mem_rows h
  simp [hcode, hmark.symm, hls line hline]

theorem split_rows (h : ∀ row ∈ rs, '\n' ∉ row) (rest : Bytes) :
    Line.terminated (utf8 (rs.flatMap (· ++ ['\r', '\n'])) ++ rest) =
        rs.map (fun row => utf8 row ++ [Line.carriageReturn]) ++ Line.terminated rest ∧
      Line.unterminated (utf8 (rs.flatMap (· ++ ['\r', '\n'])) ++ rest) =
        Line.unterminated rest := by
  induction rs with
  | nil => exact ⟨rfl, rfl⟩
  | cons row rs ih =>
    have hrow : Line.lineFeed ∉ utf8 row ++ [Line.carriageReturn] := by
      have hmem := mt (mem_utf8 (c := '\n') (by decide) row).1 (h row (List.mem_cons_self ..))
      simpa [Line.carriageReturn, Line.lineFeed] using hmem
    have hbytes : utf8 ((row :: rs).flatMap (· ++ ['\r', '\n'])) ++ rest =
        (utf8 row ++ [Line.carriageReturn]) ++
          Line.lineFeed :: (utf8 (rs.flatMap (· ++ ['\r', '\n'])) ++ rest) := by
      have hreturn : String.utf8EncodeChar '\r' = [Line.carriageReturn] := rfl
      have hfeed : String.utf8EncodeChar '\n' = [Line.lineFeed] := rfl
      simp [hreturn, hfeed]
    obtain ⟨hterminated, hunterminated⟩ := ih fun row hrow => h row (List.mem_cons_of_mem _ hrow)
    rw [hbytes, Line.terminated_append hrow, Line.unterminated_append hrow, hterminated]
    exact ⟨rfl, hunterminated⟩

theorem dropReturn_row (row : List Char) :
    Line.dropReturn (utf8 row ++ [Line.carriageReturn]) = utf8 row := by
  rw [Line.dropReturn, List.getLast?_concat, if_pos rfl, List.dropLast_concat]

theorem join_utf8 (ls : List (List Char)) :
    join Line.lineFeed (ls.map utf8) = utf8 (join '\n' ls) := by
  fun_induction join '\n' ls with
  | case1 => rfl
  | case2 => rfl
  | case3 line ls hls ih =>
    obtain ⟨next, ls, rfl⟩ := List.exists_cons_of_ne_nil hls
    rw [utf8_append, utf8_cons, ← ih]
    rfl

end Wire

section Received

variable {n : Nat} {line text : Bytes} {r : Reply} {rs : List Reply} {rest : Bytes}

theorem not_mem_digits (n : Nat) : '\n' ∉ digits n := fun h =>
  absurd (isDigit_of_mem_digits h) (by decide)

/-- The lines of a reply are taken for that reply, whatever they hold. -/
theorem collect_rows (h : 100 ≤ n) (h' : n ≤ 999) (texts : List Bytes) {ls : List (List Char)}
    (hls : ls ≠ []) (more : List Bytes) :
    collect? texts ((rows (digits n) ls).map utf8 ++ more) =
      (collect? [] more).map
        (⟨n, decode (join Line.lineFeed (texts ++ ls.map utf8))⟩ :: ·) := by
  have hdrop (rest : Bytes) : (utf8 (digits n) ++ rest).drop 3 = rest :=
    List.drop_left' (length_utf8_digits h h')
  have hspace : String.utf8EncodeChar ' ' = [space] := rfl
  have hdash : String.utf8EncodeChar '-' = [45] := rfl
  induction ls generalizing texts with
  | nil => exact absurd rfl hls
  | cons line ls ih =>
    cases ls with
    | nil =>
      simp only [rows, List.map_cons, List.map_nil, List.cons_append, List.nil_append, utf8_append,
        utf8_cons, hspace, collect?, hdrop, if_pos, codeOf_digits h h']
      cases collect? [] more <;> rfl
    | cons next ls =>
      have hnext : ([45] : Bytes) ++ utf8 line = 45 :: utf8 line := rfl
      simp only [rows, List.map_cons, List.cons_append, utf8_append, utf8_cons, hdash, hnext,
        collect?, hdrop]
      rw [if_neg (by decide), ih (texts ++ [utf8 line]) (List.cons_ne_nil _ _), List.append_assoc]
      rfl

theorem rows_ne_nil (code : List Char) {ls : List (List Char)} (h : ls ≠ []) :
    rows code ls ≠ [] := by
  fun_cases rows code ls with
  | case1 => exact absurd rfl h
  | case2 => exact List.cons_ne_nil _ _
  | case3 => exact List.cons_ne_nil _ _

/-- What a client should take a reply for. -/
def received (r : Reply) : Reply := ⟨r.code, String.ofList (tidy r.text.toList)⟩

theorem encode_frame (h : 100 ≤ r.code) (h' : r.code ≤ 999) : encode r.frame =
    utf8 ((rows (digits r.code) (lines r.text.toList)).flatMap (· ++ ['\r', '\n'])) := by
  rw [frame, encode_ofList, frameChars, frameLines_eq, padded_eq_digits h h']

theorem split_frame (h : 100 ≤ r.code) (h' : r.code ≤ 999) (rest : Bytes) :
    Line.terminated (encode r.frame ++ rest) =
        (rows (digits r.code) (lines r.text.toList)).map
          (fun row => utf8 row ++ [Line.carriageReturn]) ++ Line.terminated rest ∧
      Line.unterminated (encode r.frame ++ rest) = Line.unterminated rest := by
  rw [encode_frame h h']
  exact split_rows (fun _ => not_mem_rows (not_mem_digits _) fun _ => not_mem_lines) rest

theorem terminated_frame (h : 100 ≤ r.code) (h' : r.code ≤ 999) :
    Line.terminated (encode r.frame) = (rows (digits r.code) (lines r.text.toList)).map
      fun row => utf8 row ++ [Line.carriageReturn] := by
  have hsplit := (split_frame h h' []).1
  rwa [List.append_nil, show Line.terminated [] = [] from rfl, List.append_nil] at hsplit

theorem unterminated_frame (h : 100 ≤ r.code) (h' : r.code ≤ 999) :
    Line.unterminated (encode r.frame) = [] := by
  have hsplit := (split_frame h h' []).2
  rwa [List.append_nil] at hsplit

/-- The lines of a reply come before the lines of what follows it. -/
theorem terminated_frame_append (h : 100 ≤ r.code) (h' : r.code ≤ 999) (rest : Bytes) :
    Line.terminated (encode r.frame ++ rest) =
      Line.terminated (encode r.frame) ++ Line.terminated rest := by
  rw [(split_frame h h' rest).1, terminated_frame h h']

theorem receive_frame (h : 100 ≤ r.code) (h' : r.code ≤ 999) (rest : Bytes) :
    receive? (encode r.frame ++ rest) = (receive? rest).map (r.received :: ·) := by
  obtain ⟨hterminated, hunterminated⟩ := split_frame h h' rest
  have hrows : ((rows (digits r.code) (lines r.text.toList)).map
      fun row => utf8 row ++ [Line.carriageReturn]).map Line.dropReturn =
        (rows (digits r.code) (lines r.text.toList)).map utf8 := by
    rw [List.map_map]
    exact List.map_congr_left fun row _ => dropReturn_row row
  rw [receive?, receive?, hterminated, hunterminated, List.map_append, hrows,
    collect_rows h h' [] (lines_ne_nil _), List.nil_append, join_utf8, join_lines, decode_utf8]
  split <;> rfl

theorem terminated_frame_ne_nil (h : 100 ≤ r.code) (h' : r.code ≤ 999) :
    Line.terminated (encode r.frame) ≠ [] := by
  rw [terminated_frame h h']
  exact fun hnil => rows_ne_nil _ (lines_ne_nil _) (List.map_eq_nil_iff.1 hnil)

/-- Every line of a reply ends with a carriage return and begins with the code. -/
theorem line_of_frame (h : 100 ≤ r.code) (h' : r.code ≤ 999)
    (hline : line ∈ Line.terminated (encode r.frame)) :
    line.getLast? = some Line.carriageReturn ∧ line.take 3 = encode (ofNat r.code) := by
  rw [terminated_frame h h'] at hline
  obtain ⟨row, hrow, rfl⟩ := List.mem_map.1 hline
  obtain ⟨mark, text, rfl, -, -⟩ := exists_of_mem_rows hrow
  refine ⟨List.getLast?_concat .., ?_⟩
  rw [utf8_append, List.append_assoc, List.take_left' (length_utf8_digits h h'), ofNat,
    encode_ofList]

theorem encode_join_cons (r : Reply) (rs : List Reply) :
    encode (String.join ((r :: rs).map frame)) =
      encode r.frame ++ encode (String.join (rs.map frame)) := by
  rw [List.map_cons, encode_eq, String.toList_join, List.flatMap_cons, utf8_append, ← encode_eq,
    ← String.toList_join, ← encode_eq]

/-- Replies sent one after the other are received as such: as many as were sent, in their order and
with their codes, and of a text only the ends of its lines are lost.  Every line that is sent
belongs to one of them, ends with a carriage return and begins with its code. -/
theorem receive_frames (rs : List Reply) (h : ∀ r ∈ rs, 100 ≤ r.code ∧ r.code ≤ 999) :
    receive? (encode (String.join (rs.map frame))) = some (rs.map received) ∧
      Line.terminated (encode (String.join (rs.map frame))) =
        rs.flatMap (fun r => Line.terminated (encode r.frame)) ∧
      ∀ r ∈ rs, Line.terminated (encode r.frame) ≠ [] ∧ Line.unterminated (encode r.frame) = [] ∧
        ∀ line ∈ Line.terminated (encode r.frame), line.getLast? = some Line.carriageReturn ∧
          line.take 3 = encode (ofNat r.code) := by
  induction rs with
  | nil => exact ⟨rfl, rfl, fun _ hr => absurd hr List.not_mem_nil⟩
  | cons r rs ih =>
    obtain ⟨hlow, hhigh⟩ := h r (List.mem_cons_self ..)
    obtain ⟨hreceive, hterminated, hlines⟩ := ih fun r hr => h r (List.mem_cons_of_mem _ hr)
    rw [encode_join_cons, receive_frame hlow hhigh, terminated_frame_append hlow hhigh, hreceive,
      hterminated]
    refine ⟨rfl, rfl, fun r' hr' => ?_⟩
    rcases List.mem_cons.1 hr' with rfl | hr'
    · exact ⟨terminated_frame_ne_nil hlow hhigh, unterminated_frame hlow hhigh,
        fun line => line_of_frame hlow hhigh⟩
    · exact hlines r' hr'

/-- A line of one reply that looks like another reply is still a line of the first. -/
theorem receive_frames_with_a_false_end :
    receive? (encode (String.join (List.map frame
        [⟨220, "Welcome\n221 Goodbye.\r\n\n"⟩, ⟨250, "\n\n"⟩, ⟨550, "no\rsuch file\r"⟩]))) =
      some [⟨220, "Welcome\n221 Goodbye.\n"⟩, ⟨250, "\n"⟩, ⟨550, "no\rsuch file"⟩] :=
  (receive_frames _ (by decide)).1

end Received

end FtpServer.Reply
