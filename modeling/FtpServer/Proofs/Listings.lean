import FtpServer.Listing
import FtpServer.Proofs.Tree.RootKept
import FtpServer.Proofs.Utf8
import Mathlib.Data.List.Lex
import Mathlib.Data.List.Nodup

/-!
# Listings are read back

A client cuts a listing at each CRLF and takes every line apart: type and permissions by their
places, the size by its digits, the date by its width, and the rest for a name.  It finds every
entry of the directory once, in the order of the names, whatever the order was in which the
directory gave them.
-/

namespace FtpServer

open Text Lossy

namespace Row

inductive Mark
  | directory
  | symlink
  | other
  deriving DecidableEq, Repr

/-- What a line of a listing tells of an entry. -/
structure Shown where
  mark : Mark
  permissions : List Bool
  size : Nat
  date : List Char
  name : Bytes
  deriving DecidableEq, Repr

def readMark? : Char → Option Mark
  | 'd' => some .directory
  | 'l' => some .symlink
  | '-' => some .other
  | _ => none

/-- A permission is given by its letter, and denied by a dash. -/
def readFlag? (letter c : Char) : Option Bool :=
  if c = letter then some true else if c = '-' then some false else none

def readFlags? : List Char → List Char → Option (List Bool)
  | letter :: letters, c :: cs => do
    let flag ← readFlag? letter c
    let flags ← readFlags? letters cs
    return flag :: flags
  | [], [] => some []
  | _, _ => none

/-- A number at the right of its column or wider than that, and what is behind it. -/
def readSize? (cs : List Char) : Option (Nat × List Char) := do
  let blanks := cs.takeWhile (· = ' ')
  let column := cs.dropWhile (· = ' ')
  let number := column.takeWhile isDigit
  let size ← readNat number
  if blanks.length = 12 - number.length then some (size, column.dropWhile isDigit) else none

/-- A date between blanks, and the name behind it. -/
def readDate? : List Char → Option (List Char × List Char)
  | ' ' :: cs =>
    match cs.drop 12 with
    | ' ' :: name => some (cs.take 12, name)
    | _ => none
  | _ => none

def readLine? (line : List Char) : Option Shown := do
  let mark ← line.head?.bind readMark?
  let permissions ← readFlags? "rwxrwxrwx".toList ((line.drop 1).take 9)
  let column ← (line.drop 10).dropPrefix? " 1 ftp ftp ".toList
  let (size, behind) ← readSize? column
  let (date, name) ← readDate? behind
  return ⟨mark, permissions, size, date, encode (String.ofList name)⟩

/-- The lines of a text that ends with one, without the CRLF that ends them; `line` is what was read
of the first. -/
def cut? (line : List Char) : List Char → Option (List (List Char))
  | [] => if line = [] then some [] else none
  | '\r' :: '\n' :: rest => (cut? [] rest).map (line :: ·)
  | c :: rest => cut? (line ++ [c]) rest

/-- What a client reads in a listing. -/
def readListing? (bytes : Bytes) : Option (List Shown) := do
  let lines ← cut? [] (decode bytes).toList
  lines.mapM readLine?

section Style

variable (style : DateStyle)

def Mark.ofKind : Kind → Mark
  | .directory => .directory
  | .symlink => .symlink
  | .file | .other => .other

/-- The nine lowest bits, from the owner's reading on. -/
def permissionBits (mode : Nat) : List Bool := [8, 7, 6, 5, 4, 3, 2, 1, 0].map mode.testBit

def shown (r : Row) : Shown :=
  ⟨.ofKind r.kind, permissionBits r.mode, r.size, style.write r.modified, encode r.name⟩

def columns (r : Row) : List Char :=
  permissions r.kind r.mode ++ owner.toList ++ padLeft sizeWidth (digits r.size)
    ++ ' ' :: style.write r.modified ++ [' ']

def line (r : Row) : List Char := r.columns style ++ r.name.toList

theorem chars_eq (r : Row) :
    r.chars style = r.columns style ++ (r.name.toList ++ ['\r', '\n']) := by
  simp [chars, columns]

theorem readMark_kindMark (kind : Kind) : readMark? (kindMark kind) = some (.ofKind kind) := by
  cases kind <;> rfl

theorem readFlags_cons {letter : Char} (h : letter ≠ '-') (b : Bool) (letters cs : List Char) :
    readFlags? (letter :: letters) ((if b then letter else '-') :: cs)
      = (readFlags? letters cs).map (b :: ·) := by
  have hflag : readFlag? letter (if b then letter else '-') = some b := by
    cases b <;> simp [readFlag?, h.symm]
  rw [readFlags?, hflag]
  cases readFlags? letters cs <;> rfl

theorem readFlags_triad (bits : Nat) (letters cs : List Char) :
    readFlags? ('r' :: 'w' :: 'x' :: letters) (triad bits ++ cs)
      = (readFlags? letters cs).map ([bits.testBit 2, bits.testBit 1, bits.testBit 0] ++ ·) := by
  have hr : 'r' ≠ '-' := by decide
  have hw : 'w' ≠ '-' := by decide
  have hx : 'x' ≠ '-' := by decide
  simp only [triad, List.cons_append, List.nil_append, readFlags_cons hr, readFlags_cons hw,
    readFlags_cons hx, Option.map_map]
  rfl

theorem readFlags_permissions (mode : Nat) :
    readFlags? "rwxrwxrwx".toList (triad (mode / 64) ++ triad (mode / 8) ++ triad mode)
      = some (permissionBits mode) := by
  have hletters : "rwxrwxrwx".toList = ['r', 'w', 'x', 'r', 'w', 'x', 'r', 'w', 'x'] := rfl
  have howner (i : Nat) : (mode / 64).testBit i = mode.testBit (i + 6) :=
    Nat.testBit_div_two_pow (n := 6) mode i
  have hgroup (i : Nat) : (mode / 8).testBit i = mode.testBit (i + 3) :=
    Nat.testBit_div_two_pow (n := 3) mode i
  rw [hletters, List.append_assoc, readFlags_triad, readFlags_triad, ← List.append_nil (triad mode),
    readFlags_triad]
  simp only [howner, hgroup]
  rfl

theorem blanks_padLeft (n : Nat) (rest : List Char) :
    (padLeft sizeWidth (digits n) ++ rest).takeWhile (· = ' ')
        = List.replicate (sizeWidth - (digits n).length) ' ' ∧
      (padLeft sizeWidth (digits n) ++ rest).dropWhile (· = ' ') = digits n ++ rest := by
  have hblanks : ∀ c ∈ List.replicate (sizeWidth - (digits n).length) ' ', (c = ' ' : Bool) := by
    simp
  obtain ⟨first, more, hfirst⟩ := List.exists_cons_of_ne_nil (digits_ne_nil n)
  have hne : first ≠ ' ' := by
    rintro rfl
    cases isDigit_of_mem_digits (n := n) (c := ' ') (by simp [hfirst])
  rw [padLeft, List.append_assoc, List.takeWhile_append_of_pos hblanks,
    List.dropWhile_append_of_pos hblanks, hfirst]
  simp [hne]

theorem number_digits (n : Nat) (rest : List Char) :
    (digits n ++ ' ' :: rest).takeWhile isDigit = digits n ∧
      (digits n ++ ' ' :: rest).dropWhile isDigit = ' ' :: rest := by
  have hdigits : ∀ c ∈ digits n, isDigit c = true := fun _ => isDigit_of_mem_digits
  have hblank : ¬ isDigit ' ' = true := by decide
  rw [List.takeWhile_append_of_pos hdigits, List.dropWhile_append_of_pos hdigits,
    List.takeWhile_cons_of_neg hblank, List.dropWhile_cons_of_neg hblank, List.append_nil]
  exact ⟨rfl, rfl⟩

theorem readSize_padLeft (n : Nat) (rest : List Char) :
    readSize? (padLeft sizeWidth (digits n) ++ ' ' :: rest) = some (n, ' ' :: rest) := by
  obtain ⟨hblanks, hcolumn⟩ := blanks_padLeft n (' ' :: rest)
  obtain ⟨hnumber, hbehind⟩ := number_digits n rest
  simp only [readSize?, hblanks, hcolumn, hnumber, hbehind, readNat_digits, List.length_replicate]
  exact if_pos rfl

theorem readDate_date (seconds : Int) (name : List Char) :
    readDate? (' ' :: (style.write seconds ++ ' ' :: name)) = some (style.write seconds, name) := by
  have hlength := style.length_write seconds
  simp only [readDate?, List.drop_left' hlength, List.take_left' hlength]

theorem readLine_line (r : Row) : readLine? (r.line style) = some (r.shown style) := by
  let column := padLeft sizeWidth (digits r.size)
    ++ ' ' :: (style.write r.modified ++ ' ' :: r.name.toList)
  have hmark : (r.line style).head?.bind readMark? = some (.ofKind r.kind) :=
    readMark_kindMark r.kind
  have hflags : ((r.line style).drop 1).take 9
      = triad (r.mode / 64) ++ triad (r.mode / 8) ++ triad r.mode := rfl
  have howner : ((r.line style).drop 10).dropPrefix? " 1 ftp ftp ".toList = some column := by
    refine List.dropPrefix?_eq_some_iff.2 ⟨owner.toList, ?_, rfl⟩
    simp [line, columns, permissions, triad, column]
  rw [readLine?, hmark, hflags, readFlags_permissions, howner]
  simp only [Option.bind_eq_bind, Option.bind_some, column, readSize_padLeft, readDate_date,
    String.ofList_toList]
  rfl

theorem cut_of_not_mem {cs : List Char} (h : '\r' ∉ cs) (line rest : List Char) :
    cut? line (cs ++ rest) = cut? (line ++ cs) rest := by
  induction cs generalizing line with
  | nil => simp
  | cons c cs ih =>
    rw [List.cons_append, cut?, ih (List.not_mem_of_not_mem_cons h), List.append_assoc]
    · rfl
    · rintro more rfl
      exact absurd List.mem_cons_self h

/-- The end of a line is found behind a text that has none in it, though it may have the half of
one at either end. -/
theorem cut_line {cs : List Char} (h : ¬ ['\r', '\n'] <:+: cs) (line rest : List Char) :
    cut? line (cs ++ '\r' :: '\n' :: rest) = (cut? [] rest).map ((line ++ cs) :: ·) := by
  induction cs generalizing line with
  | nil => rw [List.nil_append, cut?, List.append_nil]
  | cons c cs ih =>
    have hcs : ¬ ['\r', '\n'] <:+: cs := fun hcs => h (List.infix_cons hcs)
    rw [List.cons_append, cut?, ih hcs]
    · simp
    · rintro more rfl hmore
      cases cs with
      | nil => cases hmore
      | cons d cs =>
        obtain rfl := (List.cons.inj hmore).1
        exact h ⟨[], cs, rfl⟩

theorem not_mem_triad (bits : Nat) : '\r' ∉ triad bits := by
  have hflag {letter : Char} (h : '\r' ≠ letter) (b : Bool) :
      '\r' ≠ if b then letter else '-' := by
    cases b <;> simp [h]
  simp only [triad, List.mem_cons, List.not_mem_nil, or_false, not_or]
  exact ⟨hflag (by decide) _, hflag (by decide) _, hflag (by decide) _⟩

theorem not_mem_padLeft (n : Nat) : '\r' ∉ padLeft sizeWidth (digits n) := by
  intro h
  rcases List.mem_append.1 h with h | h
  · cases List.eq_of_mem_replicate h
  · cases isDigit_of_mem_digits h

theorem not_mem_columns (r : Row) : '\r' ∉ r.columns style := by
  have hkind : '\r' ≠ kindMark r.kind := by cases r.kind <;> decide
  have howner : '\r' ∉ owner.toList := by decide
  simp [columns, permissions, hkind, howner, not_mem_triad, not_mem_padLeft,
    (style.write_plain _).1]

theorem cut_row {r : Row} (h : ¬ ['\r', '\n'] <:+: r.name.toList) (rest : List Char) :
    cut? [] (r.chars style ++ rest) = (cut? [] rest).map (r.line style :: ·) := by
  rw [chars_eq, List.append_assoc, List.append_assoc, cut_of_not_mem (not_mem_columns style r)]
  exact cut_line h (r.columns style) rest

theorem cut_rows {rows : List Row} (h : ∀ r ∈ rows, ¬ ['\r', '\n'] <:+: r.name.toList) :
    cut? [] (rows.flatMap (chars style)) = some (rows.map (line style)) := by
  induction rows with
  | nil => rfl
  | cons r rows ih =>
    rw [List.flatMap_cons, cut_row style (h r List.mem_cons_self),
      ih fun r hr => h r (List.mem_cons_of_mem _ hr)]
    rfl

theorem readListing_listing {rows : List Row}
    (h : ∀ r ∈ rows, ¬ ['\r', '\n'] <:+: r.name.toList) :
    readListing? (listing style rows) = some (rows.map (shown style)) := by
  have hlines : (rows.map (line style)).mapM readLine? = some (rows.map (shown style)) := by
    induction rows with
    | nil => rfl
    | cons r rows ih =>
      simp [readLine_line, ih fun r hr => h r (List.mem_cons_of_mem _ hr)]
  rw [readListing?, listing, decode_encode, String.toList_ofList, cut_rows style h]
  exact hlines

end Style

end Row

namespace Tree

variable {t : Tree} {es : List (Key × Entry)} {k : Key} {sizes : Key → Nat} {style : DateStyle}

theorem lookup_of_perm {es' : List (Key × Entry)} (hkeys : (es.map Prod.fst).Nodup)
    (hes : es.Perm es') (k : Key) : es.lookup k = es'.lookup k := by
  induction hes with
  | nil => rfl
  | cons entry _ ih =>
    rw [List.lookup_cons, List.lookup_cons, ih (List.nodup_cons.1 hkeys).2]
  | swap entry entry' rest =>
    have hne : entry'.1 ≠ entry.1 := List.ne_of_not_mem_cons (List.nodup_cons.1 hkeys).1
    obtain ⟨key, e⟩ := entry
    obtain ⟨key', e'⟩ := entry'
    simp only [List.lookup_cons]
    by_cases hk : k = key
    · subst hk
      simp [beq_eq_false_iff_ne.2 (Ne.symm hne)]
    · simp [beq_eq_false_iff_ne.2 hk]
  | trans hes _ ih ih' => exact (ih hkeys).trans (ih' ((hes.map Prod.fst).nodup_iff.1 hkeys))

/-- Where no key occurs twice, the order of the entries is not seen by a look for one. -/
theorem find_of_perm (hkeys : (es.map Prod.fst).Nodup) (hes : es.Perm t.entries) (k : Key) :
    ({ t with entries := es } : Tree).find? k = t.find? k := by
  simp only [find?, lookup_of_perm hkeys hes]

theorem walkNames_congr {t t' : Tree} (hfind : ∀ k, t'.find? k = t.find? k) (made : Bool)
    (follow : Key → List Bytes → Except OsError Found) (here : Key) (names : List Bytes) :
    t'.walkNames made follow here names = t.walkNames made follow here names := by
  induction names generalizing here with
  | nil => simp only [walkNames, hfind]
  | cons name rest ih => simp only [walkNames, hfind, ih]

theorem walk_congr {t t' : Tree} (hfind : ∀ k, t'.find? k = t.find? k) (made : Bool)
    (left : Nat) (here : Key) (names : List Bytes) :
    t'.walk made left here names = t.walk made left here names := by
  induction left generalizing here names with
  | zero => exact walkNames_congr hfind made _ here names
  | succ left ih =>
    have hwalk : t'.walk made left = t.walk made left := funext fun here => funext (ih here)
    rw [walk, walk, hwalk]
    exact walkNames_congr hfind made _ here names

theorem locate_of_perm (hkeys : (es.map Prod.fst).Nodup) (hes : es.Perm t.entries) (p : Place) :
    ({ t with entries := es } : Tree).locate p = t.locate p := by
  simp only [locate, startOf, walk_congr (find_of_perm hkeys hes)]

/-- Names of a directory that a row can show: text without the end of a line. -/
def Presentable (name : Bytes) : Prop :=
  ∃ s : String, encode s = name ∧ ¬ ['\r', '\n'] <:+: s.toList

def shown (t : Tree) (style : DateStyle) (sizes : Key → Nat) (k : Key) (name : Bytes) (e : Entry) :
    Row.Shown :=
  ⟨.ofKind e.node.kind, Row.permissionBits e.mode, t.sizeOf sizes (k ++ [name]) e.node,
    style.write e.modified, name⟩

theorem shown_row {name : Bytes} (h : Presentable name) (e : Entry) :
    (t.row sizes (k ++ [name]) name e).shown style = t.shown style sizes k name e := by
  obtain ⟨s, rfl, -⟩ := h
  simp [row, Row.shown, shown]

theorem mem_entries_of_mem_children {child : Bytes × Entry} (h : child ∈ t.children k) :
    (k ++ [child.1], child.2) ∈ t.entries := by
  obtain ⟨⟨key, e⟩, hmem, h⟩ := List.mem_filterMap.1 h
  dsimp only at h
  split at h
  next name hlast =>
    split at h
    next hk =>
      obtain rfl := Option.some.inj h
      rwa [← hk, List.dropLast_append_getLast? name hlast]
    next => cases h
  next => cases h

theorem names_nodup (hkeys : (t.entries.map Prod.fst).Nodup) (k : Key) :
    ((t.children k).map Prod.fst).Nodup := by
  rw [List.Nodup, List.pairwise_map] at hkeys ⊢
  have hkey {entry : Key × Entry} {child : Bytes × Entry}
      (h : child ∈ ({ t with entries := [entry] } : Tree).children k) :
      entry.1 = k ++ [child.1] :=
    (congrArg Prod.fst (List.mem_singleton.1 (mem_entries_of_mem_children h))).symm
  refine List.Pairwise.filterMap _ (fun entry entry' hne child h child' h' hname => hne ?_) hkeys
  rw [hkey (List.mem_filterMap.2 ⟨entry, List.mem_singleton_self _, h⟩),
    hkey (List.mem_filterMap.2 ⟨entry', List.mem_singleton_self _, h'⟩), hname]

theorem nameLe_trans (a b c : Row) (hab : nameLe a b = true) (hbc : nameLe b c = true) :
    nameLe a c = true := by
  simp only [nameLe, decide_eq_true_eq] at *
  exact List.le_trans hab hbc

theorem nameLe_total (a b : Row) : (nameLe a b || nameLe b a) = true := by
  simp only [nameLe, Bool.or_eq_true, decide_eq_true_eq]
  exact List.le_total _ _

theorem rows_perm (t : Tree) (sizes : Key → Nat) (k : Key) : (t.rows sizes k).Perm
    ((t.children k).map fun entry => t.row sizes (k ++ [entry.1]) entry.1 entry.2) :=
  List.mergeSort_perm _ _

theorem rows_pairwise (hkeys : (t.entries.map Prod.fst).Nodup)
    (hnames : ∀ entry ∈ t.children k, Presentable entry.1) :
    (t.rows sizes k).Pairwise fun a b => encode a.name < encode b.name := by
  have hle : (t.rows sizes k).Pairwise fun a b => nameLe a b = true :=
    List.pairwise_mergeSort nameLe_trans nameLe_total _
  have hshown : (t.children k).map
      (fun entry => encode (t.row sizes (k ++ [entry.1]) entry.1 entry.2).name)
      = (t.children k).map Prod.fst := by
    refine List.map_congr_left fun entry hentry => ?_
    obtain ⟨s, hs, -⟩ := hnames entry hentry
    simp [row, ← hs]
  have hne : ((t.rows sizes k).map fun r => encode r.name).Nodup := by
    rw [((rows_perm t sizes k).map fun r => encode r.name).nodup_iff, List.map_map]
    rw [Function.comp_def, hshown]
    exact names_nodup hkeys k
  rw [List.Nodup, List.pairwise_map] at hne
  refine (hle.and hne).imp fun ⟨hle, hne⟩ => ?_
  rw [nameLe, decide_eq_true_eq] at hle
  exact Std.lt_of_le_of_ne hle hne

theorem rows_of_perm (hkeys : (t.entries.map Prod.fst).Nodup) (hes : es.Perm t.entries)
    (hnames : ∀ entry ∈ t.children k, Presentable entry.1) :
    ({ t with entries := es } : Tree).rows sizes k = t.rows sizes k := by
  have hchildren : (({ t with entries := es } : Tree).children k).Perm (t.children k) :=
    hes.filterMap _
  have hperm : (({ t with entries := es } : Tree).rows sizes k).Perm (t.rows sizes k) :=
    (rows_perm _ sizes k).trans ((hchildren.map _).trans (rows_perm t sizes k).symm)
  refine hperm.eq_of_pairwise (fun a b _ _ hab hba => absurd hba (List.lt_asymm hab)) ?_
    (rows_pairwise hkeys hnames)
  exact rows_pairwise ((hes.map Prod.fst).nodup_iff.2 hkeys) fun entry hentry =>
    hnames entry (hchildren.mem_iff.1 hentry)

/-- However a host writes dates and whatever sizes it gives directories, the listing of a directory is
the same in whatever order its entries come, and loses nothing of them: a client reads every entry
once, with its type, permissions, size, date and name, in ascending order of the names' bytes. -/
theorem listing_reads_back {p : Place} {mode : Nat} {modified : Int}
    (hkeys : (t.entries.map Prod.fst).Nodup) (hes : es.Perm t.entries)
    (hdir : t.locate p = .ok (.existing k ⟨.directory, mode, modified⟩))
    (hnames : ∀ entry ∈ t.children k, Presentable entry.1) :
    ∃ bytes items, t.list style sizes p = .ok bytes ∧
      ({ t with entries := es } : Tree).list style sizes p = .ok bytes ∧
      Row.readListing? bytes = some items ∧ (items.Pairwise fun a b => a.name < b.name) ∧
      items.Perm ((t.children k).map fun entry => t.shown style sizes k entry.1 entry.2) := by
  have hlocate := locate_of_perm ((hes.map Prod.fst).nodup_iff.2 hkeys) hes p
  have hshown : (t.children k).map
      (fun entry => (t.row sizes (k ++ [entry.1]) entry.1 entry.2).shown style)
      = (t.children k).map fun entry => t.shown style sizes k entry.1 entry.2 :=
    List.map_congr_left fun entry hentry => shown_row (hnames entry hentry) entry.2
  refine ⟨Row.listing style (t.rows sizes k), (t.rows sizes k).map (Row.shown style), ?_, ?_,
    Row.readListing_listing style ?_, ?_, ?_⟩
  · rw [list, hdir]
    rfl
  · rw [list, hlocate, hdir, ← rows_of_perm hkeys hes hnames]
    rfl
  · intro r hr
    obtain ⟨entry, hentry, rfl⟩ := List.mem_map.1 ((rows_perm t sizes k).mem_iff.1 hr)
    obtain ⟨s, hs, hend⟩ := hnames entry hentry
    simpa [row, ← hs] using hend
  · rw [List.pairwise_map]
    exact rows_pairwise hkeys hnames
  · rw [← hshown]
    have hperm := (rows_perm t sizes k).map (Row.shown style)
    rwa [List.map_map] at hperm

/-- A name that looks like columns, with a size too wide for its own; a name that ends with half of
the end of a line; a blank. -/
def shelf : Tree :=
  ⟨[([encode "1 ftp ftp 7"], ⟨.file 0, 0o640, 0⟩), ([encode "a\r"], ⟨.symlink [], symlinkMode, 0⟩),
    ([encode "a\r", encode "\r\n"], ⟨.other, fileMode, 0⟩),
    ([encode " "], ⟨.directory, 0o1755, 0⟩)], [⟨[], 10000000000000⟩], [], 0⟩

theorem listing_reads_back_from_the_end :
    ∃ bytes items, shelf.list .utc (fun _ => 4096) ⟨"/", []⟩ = .ok bytes ∧
      ({ shelf with entries := shelf.entries.reverse } : Tree).list .utc (fun _ => 4096) ⟨"/", []⟩ =
        .ok bytes ∧
      Row.readListing? bytes = some items ∧ (items.Pairwise fun a b => a.name < b.name) ∧
      items.Perm ((shelf.children []).map fun entry =>
        shelf.shown .utc (fun _ => 4096) [] entry.1 entry.2) := by
  have hchildren : shelf.children [] = [(encode "1 ftp ftp 7", ⟨.file 0, 0o640, 0⟩),
      (encode "a\r", ⟨.symlink [], symlinkMode, 0⟩), (encode " ", ⟨.directory, 0o1755, 0⟩)] := by
    decide +kernel
  have hlocate : shelf.locate ⟨"/", []⟩ = .ok (.existing [] ⟨.directory, directoryMode, 0⟩) := by
    decide +kernel
  have hnames : ∀ entry ∈ shelf.children [], Presentable entry.1 := by
    rw [hchildren]
    simp only [List.forall_mem_cons, List.not_mem_nil, false_imp_iff, implies_true, and_true]
    exact ⟨⟨"1 ftp ftp 7", rfl, by decide +kernel⟩, ⟨"a\r", rfl, by decide +kernel⟩,
      ⟨" ", rfl, by decide +kernel⟩⟩
  have hkeys : (shelf.entries.map Prod.fst).Nodup := by decide +kernel
  have hperm : shelf.entries.reverse.Perm shelf.entries := List.reverse_perm _
  exact listing_reads_back hkeys hperm hlocate hnames

end Tree

end FtpServer
