/-!
# Blank characters

The characters with the Unicode property `White_Space`, and text with them taken off both ends.
-/

namespace FtpServer.Text

def isBlank (c : Char) : Bool :=
  let n := c.val
  (9 ≤ n && n ≤ 13) || n == 32 || n == 0x85 || n == 0xA0 || n == 0x1680
    || (0x2000 ≤ n && n ≤ 0x200A) || n == 0x2028 || n == 0x2029 || n == 0x202F
    || n == 0x205F || n == 0x3000

def trimEnd (cs : List Char) : List Char :=
  (cs.reverse.dropWhile isBlank).reverse

def trim (cs : List Char) : List Char :=
  trimEnd (cs.dropWhile isBlank)

@[simp] theorem trim_nil : trim [] = [] := rfl

variable {before after cs : List Char}

theorem exists_trim (cs : List Char) : ∃ before after, cs = before ++ trim cs ++ after ∧
    (∀ c ∈ before, isBlank c) ∧ ∀ c ∈ after, isBlank c := by
  let kept := cs.dropWhile isBlank
  refine ⟨cs.takeWhile isBlank, (kept.reverse.takeWhile isBlank).reverse, ?_,
    List.all_eq_true.1 List.all_takeWhile, fun c hc => ?_⟩
  · have hend : trimEnd kept ++ (kept.reverse.takeWhile isBlank).reverse = kept := by
      rw [trimEnd, ← List.reverse_append, List.takeWhile_append_dropWhile, List.reverse_reverse]
    rw [trim, List.append_assoc, hend, List.takeWhile_append_dropWhile]
  · exact List.all_eq_true.1 List.all_takeWhile c (List.mem_reverse.1 hc)

theorem dropWhile_blank (hbefore : ∀ c ∈ before, isBlank c)
    (hhead : ∀ c, cs.head? = some c → isBlank c = false) :
    (before ++ cs).dropWhile isBlank = cs := by
  rw [List.dropWhile_append_of_pos hbefore]
  cases cs with
  | nil => rfl
  | cons c cs => simp [hhead c rfl]

/-- Blanks around a text that neither begins nor ends with one are taken off. -/
theorem trim_between (hbefore : ∀ c ∈ before, isBlank c) (hafter : ∀ c ∈ after, isBlank c)
    (hne : cs ≠ []) (hcs : ∀ c ∈ cs, isBlank c = false) : trim (before ++ cs ++ after) = cs := by
  have hstart : (before ++ cs ++ after).dropWhile isBlank = cs ++ after := by
    rw [List.append_assoc]
    obtain ⟨first, more, rfl⟩ := List.exists_cons_of_ne_nil hne
    exact dropWhile_blank hbefore fun c hc => Option.some.inj hc ▸ hcs first List.mem_cons_self
  have hend : (after.reverse ++ cs.reverse).dropWhile isBlank = cs.reverse :=
    dropWhile_blank (by simpa using hafter) fun c hc =>
      hcs c (List.mem_reverse.1 (List.mem_of_head? hc))
  rw [trim, hstart, trimEnd, List.reverse_append, hend, List.reverse_reverse]

end FtpServer.Text
