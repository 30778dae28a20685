/-
Reading bytes as UTF-8 with replacement.

What is no UTF-8 is read as the replacement character, once for every longest start of a
sequence that could still have become one. An ASCII byte is never part of such a start, so
reading commutes with cutting at ASCII bytes: that is the lemma to use when a text is read line
by line. This file names nothing of the repository.
-/
import Crony.Lib.Framing
import Crony.Lib.Words

set_option autoImplicit false

namespace Crony.Lib

/-- The replacement character. -/
def replacement : Char := Char.ofNat 0xFFFD

/-- The ranges of the bytes that have to follow a lead byte. -/
def followers (lead : UInt8) : Option (List (UInt8 × UInt8)) :=
  if 0xC2 ≤ lead ∧ lead ≤ 0xDF then some [(0x80, 0xBF)]
  else if lead = 0xE0 then some [(0xA0, 0xBF), (0x80, 0xBF)]
  else if lead = 0xED then some [(0x80, 0x9F), (0x80, 0xBF)]
  else if 0xE1 ≤ lead ∧ lead ≤ 0xEF then some [(0x80, 0xBF), (0x80, 0xBF)]
  else if lead = 0xF0 then some [(0x90, 0xBF), (0x80, 0xBF), (0x80, 0xBF)]
  else if 0xF1 ≤ lead ∧ lead ≤ 0xF3 then some [(0x80, 0xBF), (0x80, 0xBF), (0x80, 0xBF)]
  else if lead = 0xF4 then some [(0x80, 0x8F), (0x80, 0xBF), (0x80, 0xBF)]
  else none

/-- How many of the bytes are as they have to be. -/
def matched : List (UInt8 × UInt8) → List UInt8 → Nat
  | range :: ranges, b :: bytes => if range.1 ≤ b ∧ b ≤ range.2 then matched ranges bytes + 1 else 0
  | _, _ => 0

/-- The text of a complete sequence. -/
def sequence_text (bytes : List UInt8) : List Char :=
  ((String.fromUTF8? ⟨bytes.toArray⟩).map String.toList).getD [replacement]

/-- What is read at the first of some bytes, and how many of the others belong to it. -/
def lossy_head (b : UInt8) (rest : List UInt8) : List Char × Nat :=
  if b < 0x80 then ([Char.ofNat b.toNat], 0)
  else
    match followers b with
    | none => ([replacement], 0)
    | some ranges =>
      let n := matched ranges rest
      if n = ranges.length then (sequence_text (b :: rest.take n), n) else ([replacement], n)

/-- The text of any bytes. -/
def lossy : List UInt8 → List Char
  | [] => []
  | b :: rest => (lossy_head b rest).1 ++ lossy (rest.drop (lossy_head b rest).2)
termination_by bytes => bytes.length
decreasing_by
  rw [List.length_drop, List.length_cons]
  omega

@[simp] theorem lossy_nil : lossy [] = [] := by
  rw [lossy]

theorem lossy_cons (b : UInt8) (rest : List UInt8) :
    lossy (b :: rest) = (lossy_head b rest).1 ++ lossy (rest.drop (lossy_head b rest).2) := by
  rw [lossy]

/-! ## Cutting at ASCII -/

/-- No ASCII byte follows a lead byte. -/
theorem followers_ascii {lead : UInt8} {ranges : List (UInt8 × UInt8)}
    (h : followers lead = some ranges) :
    ∀ range ∈ ranges, 0x80 ≤ range.1 := by
  have hlists : ∀ list ∈ [[((0x80 : UInt8), (0xBF : UInt8))], [(0xA0, 0xBF), (0x80, 0xBF)],
      [(0x80, 0x9F), (0x80, 0xBF)], [(0x80, 0xBF), (0x80, 0xBF)],
        [(0x90, 0xBF), (0x80, 0xBF), (0x80, 0xBF)],
      [(0x80, 0xBF), (0x80, 0xBF), (0x80, 0xBF)], [(0x80, 0x8F), (0x80, 0xBF), (0x80, 0xBF)]],
      ∀ range ∈ list, (0x80 : UInt8) ≤ range.1 := by
    simp only [List.forall_mem_cons, List.not_mem_nil, IsEmpty.forall_iff, implies_true, and_true]
    decide
  apply hlists ranges
  rw [followers] at h
  split_ifs at h <;> · injection h with h; subst h; simp

theorem matched_le (ranges : List (UInt8 × UInt8)) (bytes : List UInt8) :
    matched ranges bytes ≤ bytes.length := by
  induction ranges generalizing bytes with
  | nil =>
    cases bytes <;> exact Nat.zero_le _
  | cons range ranges ih =>
    cases bytes with
    | nil => exact Nat.le_refl _
    | cons b bytes =>
      rw [matched, List.length_cons]
      have hrest := ih bytes
      split <;> omega

/-- What follows stops at an ASCII byte. -/
theorem matched_append {ranges : List (UInt8 × UInt8)} (h : ∀ range ∈ ranges, 0x80 ≤ range.1)
    {a : UInt8}
    (ha : a < 0x80) (bytes more : List UInt8) :
    matched ranges (bytes ++ a :: more) = matched ranges bytes := by
  induction ranges generalizing bytes with
  | nil =>
    cases bytes <;> rfl
  | cons range ranges ih =>
    have hrest : ∀ r ∈ ranges, 0x80 ≤ r.1 := fun r hr => h r (List.mem_cons_of_mem range hr)
    cases bytes with
    | nil =>
      have hno : ¬ (range.1 ≤ a ∧ a ≤ range.2) := by
        rintro ⟨hlow, -⟩
        exact absurd (UInt8.lt_of_lt_of_le ha (h range List.mem_cons_self)) (UInt8.not_lt.mpr hlow)
      rw [List.nil_append, matched, if_neg hno]
      rfl
    | cons b bytes => rw [List.cons_append, matched, matched, ih hrest]

theorem lossy_head_append {a : UInt8} (ha : a < 0x80) (b : UInt8) (rest more : List UInt8) :
    lossy_head b (rest ++ a :: more) = lossy_head b rest ∧ (lossy_head b rest).2 ≤ rest.length := by
  rw [lossy_head, lossy_head]
  by_cases hb : b < 0x80
  · rw [if_pos hb, if_pos hb]
    exact ⟨rfl, Nat.zero_le _⟩
  · rw [if_neg hb, if_neg hb]
    cases hranges : followers b with
    | none => exact ⟨rfl, Nat.zero_le _⟩
    | some ranges =>
      have hmatched := matched_append (followers_ascii hranges) ha rest more
      have hle := matched_le ranges rest
      simp only [hmatched]
      rw [List.take_append_of_le_length hle]
      refine ⟨rfl, ?_⟩
      split <;> exact hle

/-- **Reading commutes with cutting at an ASCII byte.** By induction on what stands before it. -/
theorem lossy_append {a : UInt8} (ha : a < 0x80) (bytes more : List UInt8) :
    lossy (bytes ++ a :: more) = lossy bytes ++ Char.ofNat a.toNat :: lossy more := by
  induction hn : bytes.length using Nat.strongRecOn generalizing bytes with
  | ind n ih =>
    cases bytes with
    | nil =>
      have hhead : lossy_head a more = ([Char.ofNat a.toNat], 0) := by rw [lossy_head, if_pos ha]
      rw [List.nil_append, lossy_cons, hhead, lossy_nil]
      rfl
    | cons b rest =>
      obtain ⟨hhead, hle⟩ := lossy_head_append ha b rest more
      rw [List.length_cons] at hn
      have hlength : (rest.drop (lossy_head b rest).2).length < n := by
        rw [List.length_drop]
        omega
      rw [List.cons_append, lossy_cons, lossy_cons, hhead, List.drop_append_of_le_length hle,
        ih _ hlength _ rfl, List.append_assoc]

/-! ## Lines -/

/-- A complete sequence without line feeds is read as a text without line feeds. -/
theorem feed_not_mem_sequence_text {bytes : List UInt8} (h : 0x0A ∉ bytes) :
    '\n' ∉ sequence_text bytes := by
  rw [sequence_text, String.fromUTF8?]
  split
  · rename_i hvalid
    rw [Option.map_some, Option.getD_some]
    intro hmem
    have hbytes : (String.fromUTF8 ⟨bytes.toArray⟩ hvalid).toList.flatMap String.utf8EncodeChar
        = bytes := by
      have hencode := @String.utf8Encode_toList (String.fromUTF8 ⟨bytes.toArray⟩ hvalid)
      rw [List.utf8Encode] at hencode
      have hdata := congrArg (fun b : ByteArray => b.data.toList) hencode
      simp only [List.data_toByteArray] at hdata
      exact hdata
    apply h
    rw [← hbytes, List.mem_flatMap]
    exact ⟨'\n', hmem, by decide⟩
  · rw [Option.map_none, Option.getD_none]
    decide

theorem lossy_head_feed {b : UInt8} {rest : List UInt8} (h : 0x0A ∉ b :: rest) :
    '\n' ∉ (lossy_head b rest).1 := by
  rw [lossy_head]
  split
  · rename_i hb
    rw [List.mem_singleton]
    intro hfeed
    apply h
    have hchar : ∀ a : Fin 128, '\n' = Char.ofNat a.val → a.val = 0x0A := by decide
    have hnat : b.toNat < 128 := UInt8.lt_iff_toNat_lt.mp hb
    have hvalue : b.toNat = 0x0A := hchar ⟨b.toNat, hnat⟩ hfeed
    have hb' : b = 0x0A := UInt8.toNat_inj.mp hvalue
    rw [hb']
    exact List.mem_cons_self
  · split
    · decide
    · simp only
      split
      · refine feed_not_mem_sequence_text fun hmem => h ?_
        rcases List.mem_cons.mp hmem with hmem | hmem
        · rw [hmem]
          exact List.mem_cons_self
        · exact List.mem_cons_of_mem b (List.mem_of_mem_take hmem)
      · show '\n' ∉ [replacement]
        decide

/-- Bytes without line feeds are read as one line. By induction on what is left. -/
theorem feed_not_mem_lossy {bytes : List UInt8} (h : 0x0A ∉ bytes) : '\n' ∉ lossy bytes := by
  induction hn : bytes.length using Nat.strongRecOn generalizing bytes with
  | ind n ih =>
    cases bytes with
    | nil =>
      rw [lossy_nil]
      exact List.not_mem_nil
    | cons b rest =>
      rw [lossy_cons, List.mem_append, not_or]
      refine ⟨lossy_head_feed h, ih _ ?_ ?_ rfl⟩
      · rw [← hn, List.length_drop, List.length_cons]
        omega
      · intro hmem
        exact h (List.mem_cons_of_mem b (List.mem_of_mem_drop hmem))

/-- **The lines of the text are the lines of the bytes, read one by one.** By induction on the
lines. -/
theorem splitOn_lossy (bytes : List UInt8) :
    (lossy bytes).splitOn '\n' = (bytes.splitOn 0x0A).map lossy := by
  have hlines : ∀ lines : List (List UInt8), lines ≠ [] → (∀ line ∈ lines, 0x0A ∉ line) →
      (lossy ([0x0A].intercalate lines)).splitOn '\n' = lines.map lossy := by
    intro lines hne hclean
    induction lines with
    | nil => exact absurd rfl hne
    | cons line lines ih =>
      have hline : '\n' ∉ lossy line := feed_not_mem_lossy (hclean line List.mem_cons_self)
      by_cases hnil : lines = []
      · rw [hnil, List.intercalate_singleton, List.map_singleton, splitOn_of_notMem hline]
      · have hrest := ih hnil fun l hl => hclean l (List.mem_cons_of_mem line hl)
        have hcut : (lossy line ++ '\n' :: lossy ([0x0A].intercalate lines)).splitOn '\n'
            = (lossy line).splitOn '\n' ++ (lossy ([0x0A].intercalate lines)).splitOn '\n' :=
          List.splitOnP_append_cons _ _ (by decide)
        rw [join_cons hnil, lossy_append (by decide)]
        refine hcut.trans ?_
        rw [hrest, splitOn_of_notMem hline, List.map_cons, List.singleton_append]
  have hclean : ∀ line ∈ bytes.splitOn 0x0A, 0x0A ∉ line := by
    intro line hline hmem
    have hno := splitOnP_clean bytes line hline 0x0A hmem
    exact absurd hno (by decide)
  have hcut := hlines (bytes.splitOn 0x0A) (List.splitOn_ne_nil _ _) hclean
  rw [List.intercalate_splitOn] at hcut
  exact hcut

end Crony.Lib
