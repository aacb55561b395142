import Mathlib.Data.List.GetD
import Mathlib.Data.List.Infix
import Lingo.Proofs.Parts

/-!
# Putting texts into items and lines

What is put into an item or a line is read back there, and the others stay as they are
(`nthChunk_assigned`). For items this holds everywhere (`put_item`), for lines except past
the end of two kinds of text, of which `put_line` says what becomes of them. What is put
into a range that ends before it begins goes to the end of the text (`put_inverted`).
-/

namespace Lingo

variable {cs text t d d' : List Char} {kind : ChunkKind} {c : Char} {first last i : Int32}
  {pieces xs : List (List Char)} {y : List Char} {n : Nat}

/-! ## Reading back -/

theorem nthChunk_assigned (h : Parted cs kind c d pieces)
    (ht : Parted t kind c d' (assignPiece pieces n text)) (m : Nat) :
    nthChunk t kind m c = if m = n + 1 then text else nthChunk cs kind m c := by
  cases m with
  | zero => rfl
  | succ m =>
    rw [ht.nth, h.nth, getD_assignPiece]
    simp only [Nat.add_right_cancel_iff]

/-- The text is read at a position, and what was read at others still is. -/
theorem chunkAt_of_nthChunk (hi : 1 ≤ i.toInt)
    (h : ∀ n, nthChunk t kind n c = if n = i.toInt.toNat then text else nthChunk cs kind n c) :
    chunkAt t kind i c = text ∧
      ∀ j : Int32, 1 ≤ j.toInt → j ≠ i → chunkAt t kind j c = chunkAt cs kind j c := by
  refine ⟨?_, fun j hj other => ?_⟩
  · rw [chunkAt_eq, h, if_pos rfl]
  · rw [chunkAt_eq, chunkAt_eq, h, if_neg]
    intro same
    exact other (Int32.toInt_inj.mp (by omega))

/-! ## Items -/

/-- What is put into an item is read there, other items are unchanged, and there are as
many as before or as were needed. -/
theorem put_item (cs value : List Char) (c : Char) (i : Int32) (hi : 1 ≤ i.toInt)
    (hv : c ∉ value) :
    chunkAt (putChunk cs .item i 0 .into value c) .item i c = value ∧
    (∀ j : Int32, 1 ≤ j.toInt → j ≠ i →
      chunkAt (putChunk cs .item i 0 .into value c) .item j c = chunkAt cs .item j c) ∧
    (putChunk cs .item i 0 .into value c ≠ [] →
      chunkCount (putChunk cs .item i 0 .into value c) .item c =
        max (chunkCount cs .item c) i.toInt.toNat) := by
  obtain ⟨pieces, split⟩ := exists_splits (List.cons_ne_nil c []) cs
  have before : Parted cs .item c [c] pieces := parted_item split
  have put := before.put hi value
  rw [if_neg fun both => nomatch both.2.1, Nat.add_zero] at put
  generalize putChunk cs .item i 0 .into value c = t at put ⊢
  have some : assignPiece pieces (i.toInt.toNat - 1) value ≠ [] := by
    rw [← List.length_pos_iff, length_assignPiece]
    omega
  have after : Parted t .item c [c] (assignPiece pieces (i.toInt.toNat - 1) value) := by
    refine parted_item (put ▸ splits_intercalate (unbordered_singleton c) some fun piece hp => ?_)
    rcases mem_assignPiece hp with old | rfl | rfl
    · exact split.absent (List.cons_ne_nil c []) old
    · exact mt List.infix_nil.mp (List.cons_ne_nil c [])
    · exact mt (List.singleton_infix_iff c piece).mp hv
  have reads (n : Nat) :
      nthChunk t .item n c = if n = i.toInt.toNat then value else nthChunk cs .item n c := by
    rw [nthChunk_assigned before after, Nat.sub_add_cancel (by omega)]
  obtain ⟨here, others⟩ := chunkAt_of_nthChunk hi reads
  refine ⟨here, others, fun nonempty => ?_⟩
  have count : chunkCount t .item c ≠ 0 := fun none => nonempty (after.eq_nil none).2
  have many := before.length
  have many' := after.length
  rw [if_neg fun both => nomatch both.1] at many many'
  rw [length_assignPiece] at many'
  omega

/-- Item 4 of a text with two, of which the first is empty. -/
theorem put_item_padded :
    let cs := ",a".toList
    let t := putChunk cs .item 4 0 .into ['v'] ','
    1 ≤ (4 : Int32).toInt ∧ ',' ∉ ['v'] ∧ t = ",a,,v".toList ∧ chunkAt t .item 4 ',' = ['v'] ∧
    (∀ j : Int32, 1 ≤ j.toInt → j ≠ 4 → chunkAt t .item j ',' = chunkAt cs .item j ',') ∧
    chunkCount t .item ',' = 4 := by
  intro cs t
  have hi : 1 ≤ (4 : Int32).toInt := by decide
  have hv : ',' ∉ ['v'] := by decide
  obtain ⟨here, others, count⟩ := put_item cs ['v'] ',' 4 hi hv
  exact ⟨hi, hv, by decide, here, others, count (by decide)⟩

/-! ## Lines -/

/-- A line put into a text, or behind its end, is a line of the new text, unless the
terminator that is put behind the end makes one with the CR that stands there. -/
theorem parted_assigned_line (split : Splits (lineDelimiter cs) cs pieces) (hv : NoBreak text)
    (ends : pieces.length ≤ n → lineDelimiter cs = ['\n'] → ¬ ['\r'] <:+ cs)
    (ht : t = (lineDelimiter cs).intercalate (assignPiece pieces n text)) :
    Parted t .line c (lineDelimiter t) (assignPiece pieces n text) := by
  have hd := lineDelimiter_cases cs
  obtain ⟨lines, last, rfl⟩ := split.exists_concat
  obtain ⟨foremost, foremost_last⟩ := foremost_of_splits split
  have absent {line : List Char} (h : line ∈ lines ++ [last]) : ¬ lineDelimiter cs <:+: line :=
    split.absent (lineDelimiter_ne_nil cs) h
  have old (x : List Char) (hx : x ∈ lines) :
      ¬ lineDelimiter cs <:+: x ∧ Foremost (lineDelimiter cs) (x ++ lineDelimiter cs) :=
    ⟨absent (List.mem_append_left _ hx), foremost x hx⟩
  have new {x : List Char} (hx : NoBreak x) :
      ¬ lineDelimiter cs <:+: x ∧ Foremost (lineDelimiter cs) (x ++ lineDelimiter cs) :=
    ⟨not_infix_of_noBreak hd hx, foremost_line_of_noBreak hd hx⟩
  have final : ¬ lineDelimiter cs <:+: text ∧ Foremost (lineDelimiter cs) text :=
    ⟨not_infix_of_noBreak hd hv, foremost_of_noBreak hv⟩
  refine parted_line (ht ▸ ?_)
  -- The line goes before the last one, in place of it, or behind it.
  rcases Nat.lt_trichotomy n lines.length with inside | rfl | past
  · rw [assignPiece_within (by rw [List.length_append]; omega), List.set_append_left _ _ inside]
    refine splits_lines hd (fun x hx => ?_) ⟨absent (by simp), foremost_last⟩ fun none => ?_
    · rcases List.mem_or_eq_of_mem_set hx with hx | rfl
      · exact old x hx
      · exact new hv
    · rw [List.set_eq_nil_iff] at none
      rw [none] at inside
      cases inside
  · rw [assignPiece_within (by rw [List.length_append]; exact Nat.lt_succ_self _),
      List.set_append_right _ _ (Nat.le_refl _), Nat.sub_self]
    exact splits_lines hd old final fun _ => hv
  · have behind : (lines ++ [last]).length ≤ n := by rw [List.length_append]; exact past
    have ends_last : lineDelimiter cs = ['\n'] → ¬ ['\r'] <:+ last := by
      refine fun lf cr => ends behind lf (cr.trans ?_)
      rw [← split.joined, intercalate_concat]
      exact List.suffix_append _ _
    rw [assignPiece_past behind]
    refine splits_lines hd (fun x hx => ?_) final fun _ => hv
    rcases List.mem_append.mp hx with hx | hx
    · rcases List.mem_append.mp hx with hx | hx
      · exact old x hx
      · obtain rfl := List.mem_singleton.mp hx
        exact ⟨absent (by simp), foremost_line hd foremost_last ends_last⟩
    · exact List.eq_of_mem_replicate hx ▸ new noBreak_nil

/-- LF put behind a text that ends with CR, and has LF for its terminator, changes the
first line. -/
theorem nthChunk_one_changes (lf : lineDelimiter cs = ['\n']) (cr : ['\r'] <:+ cs)
    (rest : List Char) (c : Char) :
    nthChunk (cs ++ '\n' :: rest) .line 1 c ≠ nthChunk cs .line 1 c := by
  obtain ⟨before, rfl⟩ := cr
  obtain ⟨foremost, found⟩ := (lineDelimiter_eq_iff (.inr (.inl rfl)) _).mp lf
  have absent : ¬ ['\r', '\n'] <:+: before := fun both =>
    foremost.1 rfl (both.trans (List.prefix_append _ _).isInfix)
  have feed : '\n' ∈ before := by
    have : '\n' ∈ before ++ ['\r'] := (found.resolve_left (by decide)).subset (by simp)
    simpa using this
  -- Of the new text CR LF is the terminator, so that its first line keeps the LF.
  have text : before ++ ['\r'] ++ '\n' :: rest = before ++ (['\r', '\n'] ++ rest) := by simp
  have crlf : lineDelimiter (before ++ ['\r'] ++ '\n' :: rest) = ['\r', '\n'] := by
    refine (lineDelimiter_eq_iff (.inl rfl) _).mpr ⟨⟨nofun, nofun⟩, .inr ?_⟩
    rw [text, ← List.append_assoc]
    exact List.infix_append before _ rest
  have whole : Unbordered ['\r', '\n'] := crlf ▸ lineDelimiter_apart _
  obtain ⟨more, later⟩ := exists_splits (List.cons_ne_nil '\r' ['\n']) rest
  have split := Splits.next (.of_absent whole absent rest) later
  rw [← text, ← crlf] at split
  obtain ⟨pieces, old⟩ := exists_splits (lineDelimiter_ne_nil (before ++ ['\r'])) (before ++ ['\r'])
  obtain ⟨first, others, rfl⟩ := List.exists_cons_of_ne_nil old.ne_nil
  rw [(parted_line split).nth 0, (parted_line old).nth 0]
  rintro (rfl : before = first)
  refine old.absent (lineDelimiter_ne_nil _) (List.mem_cons_self ..) ?_
  rw [lf]
  exact (List.singleton_infix_iff '\n' _).mpr feed

/-- Past the end there is nothing to read. -/
theorem nthChunk_past (h : chunkCount cs kind c < n) : nthChunk cs kind n c = [] := by
  obtain ⟨m, rfl⟩ := Nat.exists_eq_add_of_lt h
  have few : (chunkTexts cs kind c).length ≤ chunkCount cs kind c + m := by
    rw [chunkTexts, List.length_map]
    exact Nat.le_add_right _ _
  rw [nthChunk, List.getD_eq_getElem?_getD, List.getElem?_eq_none few]
  rfl

/-- What is put into a line is read there; but behind the terminator of the last line,
one line further. -/
theorem nthChunk_put_line {value : List Char} (hi : 1 ≤ i.toInt) (hv : NoBreak value)
    (ends : chunkCount cs .line c < i.toInt.toNat → lineDelimiter cs = ['\n'] → ¬ ['\r'] <:+ cs)
    (n : Nat) :
    nthChunk (putChunk cs .line i 0 .into value c) .line n c =
      if n = i.toInt.toNat +
          if chunkCount cs .line c < i.toInt.toNat ∧ lineDelimiter cs <:+ cs then 1 else 0
      then value else nthChunk cs .line n c := by
  obtain ⟨pieces, split⟩ := exists_splits (lineDelimiter_ne_nil cs) cs
  have before : Parted cs .line c (lineDelimiter cs) pieces := parted_line split
  have put := before.put hi value
  simp only [true_and] at put
  have few := before.count_le
  have after : Parted _ .line c _ _ := parted_assigned_line split hv (fun behind => ends ?_) put
  · rw [nthChunk_assigned before after]
    congr 2
    omega
  · by_contra within
    rw [if_neg fun both => within both.1] at behind
    omega

/-- LF put behind a CR at the end is not the terminator that it was to be. -/
theorem put_line_behind_cr (hi : 1 ≤ i.toInt) (past : chunkCount cs .line c < i.toInt.toNat)
    (lf : lineDelimiter cs = ['\n']) (cr : ['\r'] <:+ cs) (value : List Char) :
    (1 : Int32) ≠ i ∧
      nthChunk (putChunk cs .line i 0 .into value c) .line 1 c ≠ nthChunk cs .line 1 c := by
  obtain ⟨pieces, split⟩ := exists_splits (lineDelimiter_ne_nil cs) cs
  have before : Parted cs .line c (lineDelimiter cs) pieces := parted_line split
  have some : chunkCount cs .line c ≠ 0 := by
    intro none
    rw [(before.eq_nil none).2, List.suffix_nil] at cr
    cases cr
  have missing : i.toInt.toNat - max (chunkCount cs .line c) 1 =
      i.toInt.toNat - chunkCount cs .line c - 1 + 1 := by omega
  constructor
  · rintro rfl
    have one : (1 : Int32).toInt.toNat = 1 := by decide
    omega
  · rw [putChunk_none _ ((chunkRange_one hi (.inl rfl) _).trans (if_neg (Nat.not_le.mpr past))),
      before.putPastEnd_eq, Int.max_eq_left hi, missing, lf, List.replicate_succ,
      List.flatten_cons, List.append_assoc, List.append_assoc]
    exact nthChunk_one_changes lf cr _ c

/-- What is put into a line is read there, and other lines are unchanged, exactly if the
line is there; or, behind the end of the text, if no CR stands before the LF that is put
there, and the text does not end with a terminator or there is nothing to read. Behind a
terminator at the end the value comes one line too late. -/
theorem put_line (cs value : List Char) (c : Char) (i : Int32) (hi : 1 ≤ i.toInt)
    (hv : NoBreak value) :
    let d := lineDelimiter cs
    let t := putChunk cs .line i 0 .into value c
    ((chunkAt t .line i c = value ∧
        ∀ j : Int32, 1 ≤ j.toInt → j ≠ i → chunkAt t .line j c = chunkAt cs .line j c) ↔
      i.toInt.toNat ≤ chunkCount cs .line c ∨
        (d = ['\n'] → ¬ ['\r'] <:+ cs) ∧ (d <:+ cs → value = [])) ∧
    (chunkCount cs .line c < i.toInt.toNat → (d = ['\n'] → ¬ ['\r'] <:+ cs) → d <:+ cs →
      ∀ n, nthChunk t .line n c =
        if n = i.toInt.toNat + 1 then value else nthChunk cs .line n c) := by
  intro d t
  have read (cr : chunkCount cs .line c < i.toInt.toNat → d = ['\n'] → ¬ ['\r'] <:+ cs) (n : Nat) :
      nthChunk t .line n c = _ := nthChunk_put_line hi hv cr n
  refine ⟨⟨fun ⟨here, others⟩ => ?_, fun lands => ?_⟩, fun past cr ends n => ?_⟩
  · rw [or_iff_not_imp_left, Nat.not_le]
    intro past
    have cr : d = ['\n'] → ¬ ['\r'] <:+ cs := by
      intro lf cr
      obtain ⟨other, changed⟩ := put_line_behind_cr hi past lf cr value
      have same := others 1 (by decide) other
      rw [chunkAt_eq, chunkAt_eq] at same
      exact changed same
    refine ⟨cr, fun ends => ?_⟩
    have further : chunkCount cs .line c < i.toInt.toNat ∧ d <:+ cs := ⟨past, ends⟩
    rw [chunkAt_eq, read fun _ => cr, if_pos further,
      if_neg (Nat.ne_of_lt (Nat.lt_succ_self _)), nthChunk_past past] at here
    exact here.symm
  · have cr (past : chunkCount cs .line c < i.toInt.toNat) : d = ['\n'] → ¬ ['\r'] <:+ cs :=
      (lands.resolve_left (Nat.not_le.mpr past)).1
    refine chunkAt_of_nthChunk hi fun n => ?_
    rw [read cr]
    by_cases further : chunkCount cs .line c < i.toInt.toNat ∧ d <:+ cs
    · obtain ⟨past, ends⟩ := further
      rw [(lands.resolve_left (Nat.not_le.mpr past)).2 ends]
      -- There is nothing to read either at the position or one further.
      rcases Nat.lt_or_ge n i.toInt.toNat with low | high
      · rw [if_neg (by split <;> omega), if_neg (Nat.ne_of_lt low)]
      · rw [nthChunk_past (Nat.lt_of_lt_of_le past high), ite_self, ite_self]
    · rw [if_neg further, Nat.add_zero]
  · have further : chunkCount cs .line c < i.toInt.toNat ∧ d <:+ cs := ⟨past, ends⟩
    rw [read fun _ => cr, if_pos further]

/-- Line 4 of a text with two lines, without and with a terminator at its end. -/
theorem put_line_padded :
    let bare := "a\r\nb".toList
    let ended := "a\nb\n".toList
    1 ≤ (4 : Int32).toInt ∧ NoBreak ['v'] ∧
    chunkAt (putChunk bare .line 4 0 .into ['v'] ',') .line 4 ',' = ['v'] ∧
    (∀ j : Int32, 1 ≤ j.toInt → j ≠ 4 →
      chunkAt (putChunk bare .line 4 0 .into ['v'] ',') .line j ',' = chunkAt bare .line j ',') ∧
    ∀ n, nthChunk (putChunk ended .line 4 0 .into ['v'] ',') .line n ',' =
      if n = 5 then ['v'] else nthChunk ended .line n ',' := by
  intro bare ended
  have hi : 1 ≤ (4 : Int32).toInt := by decide
  have hv : NoBreak ['v'] := by decide
  obtain ⟨here, others⟩ := (put_line bare ['v'] ',' 4 hi hv).1.mpr (.inr (by decide))
  have further := (put_line ended ['v'] ',' 4 hi hv).2 (by decide) (by decide) (by decide)
  exact ⟨hi, hv, here, others, further⟩

/-- The line behind a terminator at the end does not get what is put there, and behind a
CR at the end the first line changes. -/
theorem put_line_misses :
    NoBreak ['v'] ∧
    chunkAt (putChunk "a\n".toList .line 2 0 .into ['v'] ',') .line 2 ',' = [] ∧
    chunkAt "a\nb\r".toList .line 1 ',' = ['a'] ∧
    chunkAt (putChunk "a\nb\r".toList .line 3 0 .into ['v'] ',') .line 1 ',' = "a\nb".toList := by
  decide

/-! ## Ranges that end before they begin -/

theorem chunkRange_inverted (low : 0 < last.toInt) (inverted : last.toInt < first.toInt)
    (count : Nat) : chunkRange count first last = none := by
  unfold chunkRange
  extract_lets first' last'
  have nonzero : ¬ (last == 0) = true := by
    intro zero
    rw [eq_of_beq zero] at low
    exact absurd low (by decide)
  have before : last' < first' := by
    have hl : last' = min last.toInt.toNat count := (if_neg nonzero).trans (if_neg (by omega))
    omega
  rw [if_pos]
  rw [decide_eq_true before, Bool.or_true]

/-- A text that has no delimiter in it lengthens the last piece. -/
theorem Parted.append (h : Parted cs kind c d (xs ++ [y])) (hc : c ∉ text) (hv : NoBreak text) :
    Parted (cs ++ text) kind c d (xs ++ [y ++ text]) := by
  have joined : cs ++ text = d.intercalate (xs ++ [y ++ text]) := by
    rw [← h.split.joined, intercalate_concat, intercalate_concat, List.append_assoc]
  have apart : d ≠ [] ∧ Unbordered d ∧ ∀ x ∈ d, x ∉ text := by
    obtain ⟨rfl, rfl⟩ | ⟨rfl, rfl⟩ := h.delimits
    · exact ⟨List.cons_ne_nil c [], unbordered_singleton c, by simpa using hc⟩
    · refine ⟨lineDelimiter_ne_nil cs, lineDelimiter_apart cs, ?_⟩
      rcases lineDelimiter_cases cs with hd | hd | hd <;> rw [hd] <;> simp [hv.1, hv.2]
  obtain ⟨hd, whole, free⟩ := apart
  have split : Splits d (cs ++ text) (xs ++ [y ++ text]) := by
    rw [joined]
    refine splits_intercalate whole (List.concat_ne_nil _ _) fun piece hp => ?_
    rcases List.mem_append.mp hp with hx | hy
    · exact h.split.absent hd (List.mem_append_left _ hx)
    · rw [List.mem_singleton.mp hy]
      refine not_infix_append hd (h.split.absent hd ?_) free
      exact List.mem_append_right _ (List.mem_singleton_self y)
  obtain ⟨rfl, rfl⟩ | ⟨rfl, rfl⟩ := h.delimits
  · exact parted_item split
  · rw [← lineDelimiter_append cs hv] at split ⊢
    exact parted_line split

/-- The last chunk is lengthened by what is put behind the text, unless a line terminator
stands before it. -/
theorem nthChunk_append (hk : kind = .item ∨ kind = .line) (hc : c ∉ text) (hv : NoBreak text)
    (some : 1 ≤ chunkCount cs kind c) (hn : n ≤ chunkCount cs kind c) :
    nthChunk (cs ++ text) kind n c =
      nthChunk cs kind n c ++
        if n = chunkCount cs kind c ∧ ¬ (kind = .line ∧ lineDelimiter cs <:+ cs) then text
        else [] := by
  obtain ⟨d, pieces, before⟩ := exists_parted hk cs c
  obtain ⟨xs, y, rfl⟩ := before.split.exists_concat
  have after : Parted (cs ++ text) kind c d (xs ++ [y ++ text]) := before.append hc hv
  have ends : kind = .line ∧ d <:+ cs ↔ kind = .line ∧ lineDelimiter cs <:+ cs := by
    refine and_congr_right fun line => ?_
    obtain ⟨rfl, -⟩ | ⟨-, rfl⟩ := before.delimits
    · cases line
    · exact Iff.rfl
  have length := before.length
  rw [List.length_append, List.length_singleton, Nat.max_eq_left some] at length
  simp only [ends] at length
  cases n with
  | zero => exact (if_neg fun both => absurd both.1 (by omega)).symm
  | succ n =>
    rw [after.nth, before.nth]
    rcases Nat.lt_or_ge n xs.length with earlier | last
    · rw [List.getD_append _ _ _ _ earlier, List.getD_append _ _ _ _ earlier, if_neg,
        List.append_nil]
      rintro ⟨final, bare⟩
      rw [if_neg bare] at length
      omega
    · obtain ⟨rfl, bare⟩ : n = xs.length ∧ ¬ (kind = .line ∧ lineDelimiter cs <:+ cs) := by
        split at length
        · omega
        · exact ⟨by omega, ‹_›⟩
      rw [if_neg bare] at length
      rw [if_pos ⟨by omega, bare⟩, List.getD_append_right _ _ _ _ (Nat.le_refl _),
        List.getD_append_right _ _ _ _ (Nat.le_refl _), Nat.sub_self]
      rfl

/-- What is put into a range that selects nothing, but begins in the text, goes to the
end of it. -/
theorem putChunk_unselected (hk : kind = .item ∨ kind = .line) (mode : PutMode)
    (range : chunkRange (chunkCount cs kind c) first last = none)
    (few : first.toInt.toNat ≤ chunkCount cs kind c) :
    putChunk cs kind first last mode text c = cs ++ text := by
  obtain ⟨d, pieces, before⟩ := exists_parted hk cs c
  have missing : (max first.toInt 1).toNat - max (chunkCount cs kind c) 1 = 0 := by omega
  rw [putChunk_none mode range, before.putPastEnd_eq, missing, List.replicate_zero,
    List.flatten_nil, List.append_nil]

/-- A range that ends before it begins selects nothing to read or to delete, but what is
put into it goes to the end of the text. There it lengthens the last chunk, unless a line
terminator stands before it, so that it is a chunk of its own. -/
theorem put_inverted (cs value : List Char) (kind : ChunkKind) (c : Char) (mode : PutMode)
    (first last : Int32) (hk : kind = .item ∨ kind = .line) (hc : c ∉ value) (hv : NoBreak value)
    (low : 0 < last.toInt) (inverted : last.toInt < first.toInt)
    (few : first.toInt.toNat ≤ chunkCount cs kind c) :
    let t := putChunk cs kind first last mode value c
    let apart := kind = .line ∧ lineDelimiter cs <:+ cs
    chunkText cs kind first last c = [] ∧ deleteChunk cs kind first last c = cs ∧
    t = cs ++ value ∧
    (∀ n < chunkCount cs kind c, nthChunk t kind n c = nthChunk cs kind n c) ∧
    nthChunk t kind (chunkCount cs kind c) c =
      nthChunk cs kind (chunkCount cs kind c) c ++ (if apart then [] else value) ∧
    ((∀ n ≤ chunkCount cs kind c, nthChunk t kind n c = nthChunk cs kind n c) ↔
      value = [] ∨ apart) := by
  intro t apart
  have range := chunkRange_inverted low inverted (chunkCount cs kind c)
  have unselected : chunkSpan? (chunkSpans cs kind c) first last = none := chunkSpan?_none range
  have put : t = cs ++ value := putChunk_unselected hk mode range few
  have some : 1 ≤ chunkCount cs kind c := by omega
  have others (n : Nat) (hn : n < chunkCount cs kind c) :
      nthChunk t kind n c = nthChunk cs kind n c := by
    rw [put, nthChunk_append hk hc hv some (Nat.le_of_lt hn),
      if_neg fun both => Nat.ne_of_lt hn both.1, List.append_nil]
  have final : nthChunk t kind (chunkCount cs kind c) c =
      nthChunk cs kind (chunkCount cs kind c) c ++ (if apart then [] else value) := by
    rw [put, nthChunk_append hk hc hv some (Nat.le_refl _)]
    simp only [true_and, ite_not, apart]
  refine ⟨?_, deleteChunk_none range, put, others, final, fun all => ?_, fun harmless n hn => ?_⟩
  · rw [chunkText_eq, unselected]
  · have kept := all _ (Nat.le_refl _)
    rw [final, List.append_right_eq_self] at kept
    by_cases h : apart
    · exact .inr h
    · exact .inl ((if_neg h).symm.trans kept)
  · rcases Nat.lt_or_eq_of_le hn with earlier | rfl
    · exact others n earlier
    · rw [final]
      rcases harmless with rfl | h
      · rw [ite_self, List.append_nil]
      · rw [if_pos h, List.append_nil]

/-- Behind a terminator at the end, the value is a line of its own. -/
theorem put_inverted_terminated :
    let cs := "a\nb\n".toList
    ',' ∉ ['v'] ∧ NoBreak ['v'] ∧ 0 < (1 : Int32).toInt ∧ (1 : Int32).toInt < (2 : Int32).toInt ∧
    (2 : Int32).toInt.toNat ≤ chunkCount cs .line ',' ∧
    putChunk cs .line 2 1 .before ['v'] ',' = "a\nb\nv".toList ∧
    ∀ n ≤ 2, nthChunk (putChunk cs .line 2 1 .before ['v'] ',') .line n ',' =
      nthChunk cs .line n ',' := by
  intro cs
  have hc : ',' ∉ ['v'] := by decide
  have hv : NoBreak ['v'] := by decide
  have low : 0 < (1 : Int32).toInt := by decide
  have inverted : (1 : Int32).toInt < (2 : Int32).toInt := by decide
  have few : (2 : Int32).toInt.toNat ≤ chunkCount cs .line ',' := by decide
  obtain ⟨-, -, put, -, -, harmless⟩ :=
    put_inverted cs ['v'] .line ',' .before 2 1 (.inr rfl) hc hv low inverted few
  exact ⟨hc, hv, low, inverted, few, put, harmless.mpr (.inr (by decide))⟩

/-- Put into items 3 to 1, a text lengthens the third item. -/
theorem put_inverted_changes :
    let cs := "a,b,c".toList
    chunkText cs .item 3 1 ',' = [] ∧ deleteChunk cs .item 3 1 ',' = cs ∧
    chunkAt cs .item 3 ',' = ['c'] ∧
    chunkAt (putChunk cs .item 3 1 .into ['v'] ',') .item 3 ',' = ['c', 'v'] := by
  decide

end Lingo
