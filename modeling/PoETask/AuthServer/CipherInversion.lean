import PoETask.AuthServer.Encrypt

/-!
# Decryption undoes encryption

Every stage of `mEncryptBuffer` is undone by a stage of `mDecryptBuffer`. The scans find the end of
the key and the '@' behind the data, since the padding holds neither letters nor digits.
-/

namespace PoETask.AuthServer

open LocalLoops

section Padding

theorem choose_mem {choices : ℕ} (positive : 0 < choices) (atMost : choices ≤ 16) (number : ℕ) :
    choose choices number ∈ szTemp := by
  have isIndex : number % choices < szTemp.length :=
    (Nat.mod_lt number positive).trans_le atMost
  rw [choose, List.getD_eq_getElem?_getD, List.getElem?_eq_getElem isIndex, Option.getD_some]
  exact List.getElem_mem isIndex

theorem padding_passes : ∀ char ∈ szTemp, endsKey char = false ∧ endsData char = false := by
  decide +kernel

/-- The data, an '@' behind them, and padding up to the total length. -/
structure Padded (pBuffer padded : ℕ → UInt8) (bufferLen nTotalLen : ℕ) : Prop where
  isLess : bufferLen < nTotalLen
  data : ∀ k < bufferLen, padded k = pBuffer k
  mark : padded bufferLen = 64
  padding : ∀ k, bufferLen < k → k < nTotalLen → padded k ∈ szTemp

variable {rand : ℕ → ℕ} {pBuffer padded : ℕ → UInt8} {nLength bufferLen nTotalLen : ℕ}

theorem padData_padded (positive : 0 < nLength) :
    Padded pBuffer (padData rand pBuffer nLength bufferLen) bufferLen
      (bufferLen + nLength * 2 - bufferLen % nLength) := by
  have isRest := Nat.mod_lt bufferLen positive
  have atMost := Nat.mod_le bufferLen nLength
  have isFilled : ∀ k, padData rand pBuffer nLength bufferLen k = _ := fun k =>
    foldl_fill (fun i => if i = 0 then 64 else choose 16 (rand (i - 1))) bufferLen
      (nLength - bufferLen % nLength + nLength) pBuffer k
  constructor
  · omega
  · intro k isData
    rw [isFilled, if_neg (by omega)]
  · rw [isFilled, if_pos (by omega), if_pos (Nat.sub_self _)]
  · intro k isBehind isInside
    rw [isFilled, if_pos (by omega), if_neg (by omega)]
    exact choose_mem (by decide) le_rfl _

/-- One more byte of padding. -/
theorem Padded.push (isPadded : Padded pBuffer padded bufferLen nTotalLen) {char : UInt8}
    (isPadding : char ∈ szTemp) :
    Padded pBuffer (Function.update padded nTotalLen char) bufferLen (nTotalLen + 1) := by
  have isLess := isPadded.isLess
  constructor
  · omega
  · intro k isData
    rw [Function.update_of_ne (by omega)]
    exact isPadded.data k isData
  · rw [Function.update_of_ne (by omega)]
    exact isPadded.mark
  · intro k isBehind isInside
    rw [Function.update_apply]
    split_ifs with isLast
    · exact isPadding
    · exact isPadded.padding k isBehind (by omega)

end Padding

section Shuffle

variable {pBuffer : ℕ → UInt8} {nTotalLen : ℕ}

theorem mirror_apply (pBuffer : ℕ → UInt8) (nTotalLen k : ℕ) :
    mirror pBuffer nTotalLen k
      = if k < nTotalLen / 2 ∨ nTotalLen ≤ k + nTotalLen / 2 ∧ k < nTotalLen
        then pBuffer (nTotalLen - 1 - k) else pBuffer k :=
  foldl_mirror pBuffer (by omega) k

theorem mirror_mirror (pBuffer : ℕ → UInt8) (nTotalLen : ℕ) :
    mirror (mirror pBuffer nTotalLen) nTotalLen = pBuffer := by
  funext k
  rw [mirror_apply]
  split_ifs with isInside
  · rw [mirror_apply, if_pos (by omega)]
    congr 1
    omega
  · rw [mirror_apply, if_neg isInside]

theorem unshuffleTurn_shuffleTurn (nTotalLen i : ℕ) (pBuffer : ℕ → UInt8) :
    unshuffleTurn nTotalLen (shuffleTurn nTotalLen pBuffer i) i = pBuffer := by
  simp only [unshuffleTurn, shuffleTurn, swap_swap, mirror_mirror]

theorem unshuffle_shuffle (pBuffer : ℕ → UInt8) (nTotalLen : ℕ) :
    unshuffle (shuffle pBuffer nTotalLen) nTotalLen = pBuffer :=
  foldl_undo (fun i _ pBuffer => unshuffleTurn_shuffleTurn nTotalLen i pBuffer) pBuffer

theorem mirror_local (nTotalLen : ℕ) :
    Local (· < nTotalLen) fun pBuffer : ℕ → UInt8 => mirror pBuffer nTotalLen := by
  apply Local.foldl
  intro j inRange
  have isLess := List.mem_range.mp inRange
  exact swap_local (by omega) (by omega)

/-- Only the bytes before the total length take part. -/
theorem unshuffle_local (nTotalLen : ℕ) :
    Local (· < nTotalLen) fun pBuffer : ℕ → UInt8 => unshuffle pBuffer nTotalLen := by
  apply Local.foldl
  intro idx inRange
  have isLess := List.mem_range.mp (List.mem_reverse.mp inRange)
  have firstSwap : Local (· < nTotalLen) fun pBuffer : ℕ → UInt8 =>
    swap pBuffer (nTotalLen / 2 - 1) (nTotalLen - 1 - idx) := swap_local (by omega) (by omega)
  have secondSwap : Local (· < nTotalLen) fun pBuffer : ℕ → UInt8 =>
    swap pBuffer (nTotalLen / 2) idx := swap_local (by omega) (by omega)
  exact (firstSwap.comp secondSwap).comp (mirror_local nTotalLen)

/-- From the shuffled bytes the old ones come back, and the bytes behind them stay. -/
theorem unshuffle_agree {shuffled : ℕ → UInt8}
    (agree : ∀ k < nTotalLen, shuffled k = shuffle pBuffer nTotalLen k) :
    (∀ k < nTotalLen, unshuffle shuffled nTotalLen k = pBuffer k)
      ∧ ∀ k, nTotalLen ≤ k → unshuffle shuffled nTotalLen k = shuffled k := by
  constructor
  · intro k isInside
    rw [(unshuffle_local nTotalLen).inside agree isInside, unshuffle_shuffle]
  · intro k isBehind
    exact (unshuffle_local nTotalLen).outside (Nat.not_lt.mpr isBehind)

end Shuffle

section Chain

variable {pBuffer : ℕ → UInt8} {szKey : List UInt8} {region : ℕ → Prop} {nLength nLen i j : ℕ}

theorem chainByte_local (isCell : region (i + j * nLength))
    (isAbove : region (i + j * nLength - nLength)) :
    Local region fun pBuffer => chainByte nLength i pBuffer j := by
  apply Local.write isCell
  intro memory other agree
  rw [agree _ isCell, agree _ isAbove]

theorem keyByte_local (isCell : region (i + 0 * nLength)) :
    Local region fun pBuffer => keyByte szKey nLength pBuffer i := by
  apply Local.write isCell
  intro memory other agree
  rw [agree _ isCell]

/-- A byte that is combined twice with the same byte is the old one. -/
theorem chainByte_chainByte (positive : 0 < nLength) (pBuffer : ℕ → UInt8) :
    chainByte nLength i (chainByte nLength i pBuffer (j + 1)) (j + 1) = pBuffer := by
  have isAbove : i + (j + 1) * nLength - nLength ≠ i + (j + 1) * nLength := by
    rw [Nat.succ_mul]
    omega
  rw [chainByte, chainByte, Function.update_self, Function.update_of_ne isAbove,
    Function.update_idem, UInt8.xor_assoc, UInt8.xor_self, UInt8.xor_zero,
    Function.update_eq_self]

theorem unchainColumn_chainColumn (positive : 0 < szKey.length) (notEmpty : 0 < nLen)
    (pBuffer : ℕ → UInt8) (i : ℕ) :
    unchainColumn szKey.length nLen (chainColumn szKey nLen pBuffer i) i
      = keyByte szKey szKey.length pBuffer i := by
  rcases Nat.exists_eq_add_of_le' notEmpty with ⟨rows, rfl⟩
  rw [chainColumn, List.range_succ_eq_map, List.foldl_cons, List.foldl_map, if_pos rfl]
  exact foldl_undo (fun j _ pBuffer => chainByte_chainByte positive pBuffer) _

theorem column_mod (inRow : i < nLength) (j : ℕ) : (i + j * nLength) % nLength = i := by
  rw [Nat.add_mul_mod_self_right, Nat.mod_eq_of_lt inRow]

/-- Below the first row, a byte and the byte above it lie in the same column. -/
theorem chainByte_column (inRow : i < nLength) (j : ℕ) :
    Local (· % nLength = i) fun pBuffer => chainByte nLength i pBuffer (j + 1) := by
  apply chainByte_local (column_mod inRow (j + 1))
  rw [Nat.succ_mul, ← Nat.add_assoc, Nat.add_sub_cancel]
  exact column_mod inRow j

theorem chainColumn_local (inRow : i < szKey.length) :
    Local (· % szKey.length = i) fun pBuffer => chainColumn szKey nLen pBuffer i := by
  apply Local.foldl
  intro j _
  cases j with
  | zero => exact keyByte_local (column_mod inRow 0)
  | succ j => exact chainByte_column inRow j

theorem unchainColumn_local (inRow : i < nLength) :
    Local (· % nLength = i) fun pBuffer => unchainColumn nLength nLen pBuffer i := by
  apply Local.foldl
  intro j _
  exact chainByte_column inRow j

/-- No byte behind the rows is touched. -/
theorem chain_local (nLen : ℕ) :
    Local (· < nLen * szKey.length) fun pBuffer => chain pBuffer szKey nLen := by
  apply Local.foldl
  intro i inRange
  have inRow := List.mem_range.mp inRange
  apply Local.foldl
  intro j inRows
  have rowsAbove := Nat.mul_le_mul_right szKey.length (Nat.succ_le_of_lt (List.mem_range.mp inRows))
  rw [Nat.succ_mul] at rowsAbove
  split_ifs with isFirst
  · rw [isFirst, Nat.zero_mul] at rowsAbove
    exact keyByte_local (by omega)
  · exact chainByte_local (by omega) (by omega)

theorem foldl_keyByte (pBuffer : ℕ → UInt8) (szKey : List UInt8) (nLength count k : ℕ) :
    (List.range count).foldl (keyByte szKey nLength) pBuffer k
      = if k < count then pBuffer k ^^^ szKey.getD k 0 else pBuffer k := by
  induction count generalizing k with
  | zero => rw [if_neg (Nat.not_lt_zero k), List.range_zero, List.foldl_nil]
  | succ count appliesBefore =>
      rw [List.range_succ, List.foldl_append, List.foldl_cons, List.foldl_nil, keyByte,
        Nat.zero_mul, Nat.add_zero, Function.update_apply, appliesBefore, appliesBefore]
      by_cases isLast : k = count
      · rw [if_pos isLast, if_neg (lt_irrefl count), if_pos (by omega), isLast]
      · rw [if_neg isLast]
        apply if_congr _ rfl rfl
        omega

theorem applyKey_apply (pBuffer : ℕ → UInt8) (szKey : List UInt8) (nKeyLen k : ℕ) :
    applyKey pBuffer szKey nKeyLen k
      = if k < nKeyLen then pBuffer k ^^^ szKey.getD k 0 else pBuffer k :=
  foldl_keyByte pBuffer szKey nKeyLen nKeyLen k

/-- The first row is left combined with the key. -/
theorem unchain_chain (positive : 0 < szKey.length) (notEmpty : 0 < nLen) (pBuffer : ℕ → UInt8) :
    unchain (chain pBuffer szKey nLen) szKey.length nLen
      = applyKey pBuffer szKey szKey.length := by
  funext k
  have isColumn : k % szKey.length ∈ List.range szKey.length :=
    List.mem_range.mpr (Nat.mod_lt k positive)
  have chains : ∀ cell, cell % szKey.length = k % szKey.length →
      chain pBuffer szKey nLen cell = chainColumn szKey nLen pBuffer (k % szKey.length) cell := by
    intro cell isCell
    rw [← isCell] at isColumn ⊢
    exact foldl_separate (fun i inRange => chainColumn_local (List.mem_range.mp inRange))
      List.nodup_range pBuffer isColumn
  calc unchain (chain pBuffer szKey nLen) szKey.length nLen k
      = unchainColumn szKey.length nLen (chain pBuffer szKey nLen) (k % szKey.length) k :=
        foldl_separate (fun i inRange => unchainColumn_local (List.mem_range.mp inRange))
          List.nodup_range _ isColumn
    _ = unchainColumn szKey.length nLen
          (chainColumn szKey nLen pBuffer (k % szKey.length)) (k % szKey.length) k :=
        (unchainColumn_local (List.mem_range.mp isColumn)).inside chains rfl
    _ = keyByte szKey szKey.length pBuffer (k % szKey.length) k := by
        rw [unchainColumn_chainColumn positive notEmpty]
    _ = applyKey pBuffer szKey szKey.length k := by
        rw [applyKey_apply, keyByte, Nat.zero_mul, Nat.add_zero, Function.update_apply]
        by_cases inRow : k < szKey.length
        · rw [Nat.mod_eq_of_lt inRow, if_pos rfl, if_pos inRow]
        · have isLess := Nat.mod_lt k positive
          rw [if_neg inRow, if_neg (by omega)]

end Chain

section Scan

variable {pBuffer : ℕ → UInt8} {stops : UInt8 → Bool}

theorem scanDown_eq {first last : ℕ} (atMost : last ≤ first) (isStop : stops (pBuffer last) = true)
    (passes : ∀ k, last < k → k ≤ first → stops (pBuffer k) = false) :
    scanDown pBuffer stops first = some last := by
  induction first with
  | zero =>
      have isFirst : last = 0 := Nat.le_zero.mp atMost
      rw [scanDown, if_pos (isFirst ▸ isStop), isFirst]
  | succ first scansRest =>
      by_cases isFirst : last = first + 1
      · rw [scanDown, if_pos (isFirst ▸ isStop), isFirst]
      · have isLess : last ≤ first := by omega
        have isPassed := passes (first + 1) (by omega) le_rfl
        rw [scanDown, isPassed, if_neg Bool.false_ne_true]
        exact scansRest isLess fun k isBehind isInside => passes k isBehind (by omega)

theorem readKey_eq {szKey : List UInt8} {start : ℕ}
    (isKey : ∀ i < szKey.length, pBuffer (start + i) = szKey.getD i 0) :
    readKey pBuffer start szKey.length = szKey := by
  apply List.ext_getElem
  · rw [readKey, List.length_map, List.length_range]
  · intro i _ inKey
    simp only [readKey, List.getElem_map, List.getElem_range]
    rw [isKey i inKey, List.getD_eq_getElem?_getD, List.getElem?_eq_getElem inKey, Option.getD_some]

/-- The scan for the '@' ends behind the data. -/
theorem scanDown_padded {padded restored : ℕ → UInt8} {bufferLen nTotalLen : ℕ}
    (isPadded : Padded pBuffer padded bufferLen nTotalLen)
    (agree : ∀ k < nTotalLen, restored k = padded k) (terminator : restored nTotalLen = 0) :
    scanDown restored endsData nTotalLen = some bufferLen := by
  have isLess := isPadded.isLess
  apply scanDown_eq isLess.le
  · rw [agree _ isLess, isPadded.mark]
    decide
  · intro k isBehind isInside
    by_cases isEnd : k = nTotalLen
    · rw [isEnd, terminator]
      decide
    · rw [agree k (by omega)]
      exact (padding_passes _ (isPadded.padding k isBehind (by omega))).2

end Scan

/-- The shuffled bytes, the key, and padding up to the end of the last row. -/
structure Sealed (padded : ℕ → UInt8) (szKey : List UInt8) (nTotalLen rows : ℕ)
    (sealed : ℕ → UInt8) : Prop where
  fits : nTotalLen + szKey.length ≤ rows * szKey.length
  shuffled : ∀ k < nTotalLen, sealed k = shuffle padded nTotalLen k
  key : ∀ i < szKey.length, sealed (nTotalLen + i) = szKey.getD i 0
  padding : ∀ k, nTotalLen + szKey.length ≤ k → k < rows * szKey.length → sealed k ∈ szTemp
  terminator : sealed (rows * szKey.length) = 0

section Stages

variable {rand : ℕ → ℕ} {pBuffer padded : ℕ → UInt8} {szKey : List UInt8}
  {nLength bufferLen nTotalLen calls : ℕ}

theorem padBuffer_padded (rand : ℕ → ℕ) (pBuffer : ℕ → UInt8) (bufferLen : ℕ)
    (positive : 0 < nLength) (isPad : padBuffer rand pBuffer nLength bufferLen
      = (padded, nTotalLen, calls)) :
    Padded pBuffer padded bufferLen nTotalLen ∧ 2 * nLength ≤ nTotalLen := by
  have isPadded : Padded pBuffer (padData rand pBuffer nLength bufferLen) bufferLen
      (bufferLen + nLength * 2 - bufferLen % nLength) := padData_padded positive
  have atMost := Nat.mod_le bufferLen nLength
  simp only [padBuffer] at isPad
  split_ifs at isPad with isOdd
  · simp only [Prod.mk.injEq] at isPad
    rcases isPad with ⟨rfl, rfl, _⟩
    exact ⟨isPadded.push (choose_mem (by decide) (by decide) _), by omega⟩
  · simp only [Prod.mk.injEq] at isPad
    rcases isPad with ⟨rfl, rfl, _⟩
    exact ⟨isPadded, by omega⟩

theorem copyKey_apply (pBuffer : ℕ → UInt8) (szKey : List UInt8) (nTotalLen k : ℕ) :
    (k < nTotalLen → copyKey pBuffer szKey nTotalLen k = pBuffer k)
      ∧ (k < szKey.length → copyKey pBuffer szKey nTotalLen (nTotalLen + k) = szKey.getD k 0) := by
  constructor
  · intro isBefore
    exact if_neg (Nat.not_le.mpr isBefore)
  · intro inKey
    rw [copyKey, if_pos (Nat.le_add_right _ _), Nat.add_sub_cancel_left, List.getD_eq_getElem?_getD,
      List.getD_eq_getElem?_getD, List.getElem?_eq_getElem inKey, Option.getD_some,
      Option.getD_some]

theorem sealed_of_copied {keyed : ℕ → UInt8} {rows : ℕ}
    (fits : nTotalLen + szKey.length ≤ rows * szKey.length)
    (copied : ∀ k < nTotalLen + szKey.length,
      keyed k = copyKey (shuffle padded nTotalLen) szKey nTotalLen k)
    (padding : ∀ k, nTotalLen + szKey.length ≤ k → k < rows * szKey.length → keyed k ∈ szTemp) :
    Sealed padded szKey nTotalLen rows (Function.update keyed (rows * szKey.length) 0) := by
  have isCopied := copyKey_apply (shuffle padded nTotalLen) szKey nTotalLen
  refine ⟨fits, ?_, ?_, ?_, Function.update_self _ _ _⟩
  · intro k isBefore
    rw [Function.update_of_ne (by omega), copied k (by omega), (isCopied k).1 isBefore]
  · intro i inKey
    rw [Function.update_of_ne (by omega), copied _ (by omega), (isCopied i).2 inKey]
  · intro k isBehind isInside
    rw [Function.update_of_ne (by omega)]
    exact padding k isBehind isInside

/-- Behind the shuffled bytes stand the key and padding up to a multiple of the key length. -/
theorem putKey_sealed (rand : ℕ → ℕ) (padded : ℕ → UInt8) (calls : ℕ) (positive : 0 < szKey.length)
    {keyed : ℕ → UInt8} {nSealed : ℕ}
    (isKeyed : putKey rand (shuffle padded nTotalLen) szKey calls nTotalLen = (keyed, nSealed)) :
    ∃ rows, nSealed = rows * szKey.length
      ∧ Sealed padded szKey nTotalLen rows (Function.update keyed nSealed 0) := by
  have isRest := Nat.mod_lt (nTotalLen + szKey.length) positive
  have isDivision := Nat.div_add_mod' (nTotalLen + szKey.length) szKey.length
  simp only [putKey] at isKeyed
  split_ifs at isKeyed with isOpen
  · simp only [Prod.mk.injEq] at isKeyed
    rcases isKeyed with ⟨isKeyed, isEnd⟩
    have isRows : nSealed = ((nTotalLen + szKey.length) / szKey.length + 1) * szKey.length := by
      rw [Nat.succ_mul]
      omega
    have isFilled : ∀ k, keyed k
        = if nTotalLen + szKey.length ≤ k ∧ k < nTotalLen + szKey.length
            + (szKey.length - (nTotalLen + szKey.length) % szKey.length)
          then choose 10 (rand (calls + (k - (nTotalLen + szKey.length))))
          else copyKey (shuffle padded nTotalLen) szKey nTotalLen k := by
      intro k
      rw [← isKeyed]
      exact foldl_fill (fun i => choose 10 (rand (calls + i))) _ _ _ k
    refine ⟨_, isRows, ?_⟩
    rw [isRows] at isEnd ⊢
    apply sealed_of_copied
    · omega
    · intro k isBefore
      rw [isFilled, if_neg (by omega)]
    · intro k isBehind isInside
      rw [isFilled, if_pos (by omega)]
      exact choose_mem (by decide) (by decide) _
  · simp only [Prod.mk.injEq] at isKeyed
    rcases isKeyed with ⟨rfl, isEnd⟩
    have isRows : nSealed = (nTotalLen + szKey.length) / szKey.length * szKey.length := by omega
    refine ⟨_, isRows, ?_⟩
    rw [isRows]
    apply sealed_of_copied
    · omega
    · exact fun k _ => rfl
    · intro k isBehind isInside
      omega

/-- What `mEncryptBuffer` has written before it chains the columns. -/
theorem mEncryptBuffer_sealed (rand : ℕ → ℕ) (pBuffer : ℕ → UInt8) (bufferLen : ℕ)
    (positive : 0 < szKey.length) :
    ∃ padded sealed nTotalLen rows, Padded pBuffer padded bufferLen nTotalLen
      ∧ Sealed padded szKey nTotalLen rows sealed
      ∧ 2 * szKey.length ≤ nTotalLen
      ∧ mEncryptBuffer rand pBuffer szKey bufferLen
        = (chain sealed szKey rows, rows * szKey.length) := by
  rcases isPad : padBuffer rand pBuffer szKey.length bufferLen with ⟨padded, nTotalLen, calls⟩
  rcases isKeyed : putKey rand (shuffle padded nTotalLen) szKey calls nTotalLen
    with ⟨keyed, nSealed⟩
  rcases padBuffer_padded rand pBuffer bufferLen positive isPad with ⟨isPadded, isLong⟩
  rcases putKey_sealed rand padded calls positive isKeyed with ⟨rows, rfl, isSealed⟩
  refine ⟨padded, _, nTotalLen, rows, isPadded, isSealed, isLong, ?_⟩
  have isEnd : chain (Function.update keyed (rows * szKey.length) 0) szKey rows
      (rows * szKey.length) = 0 := by
    rw [(chain_local rows).outside (lt_irrefl _)]
    exact isSealed.terminator
  simp only [mEncryptBuffer, isPad, isKeyed, Nat.mul_div_cancel rows positive]
  rw [Function.update_eq_iff.mpr ⟨isEnd.symm, fun _ _ => rfl⟩]

namespace Sealed

variable {sealed : ℕ → UInt8} {rows : ℕ}

theorem applyKey_behind (szKey : List UInt8) {k : ℕ} (isBehind : szKey.length ≤ k) :
    applyKey sealed szKey szKey.length k = sealed k := by
  rw [applyKey_apply, if_neg (Nat.not_lt.mpr isBehind)]

/-- The scan for the key ends at its last letter. -/
theorem scanDown_key (isSealed : Sealed padded szKey nTotalLen rows sealed)
    (isLong : szKey.length ≤ nTotalLen) (positive : 0 < szKey.length)
    (ends : ∀ letter ∈ szKey, endsKey letter = true) :
    scanDown (applyKey sealed szKey szKey.length) endsKey (rows * szKey.length)
      = some (nTotalLen + (szKey.length - 1)) := by
  have fits := isSealed.fits
  apply scanDown_eq
  · omega
  · rw [applyKey_behind szKey (by omega), isSealed.key _ (by omega)]
    apply ends
    rw [List.getD_eq_getElem?_getD, List.getElem?_eq_getElem (by omega), Option.getD_some]
    exact List.getElem_mem _
  · intro k isBehind isInside
    rw [applyKey_behind szKey (by omega)]
    by_cases isEnd : k = rows * szKey.length
    · rw [isEnd, isSealed.terminator]
      decide
    · exact (padding_passes _ (isSealed.padding k (by omega) (by omega))).1

/-- The key is read behind the shuffled bytes. -/
theorem readKey_behind (isSealed : Sealed padded szKey nTotalLen rows sealed)
    (isLong : szKey.length ≤ nTotalLen) :
    readKey (Function.update (applyKey sealed szKey szKey.length) (nTotalLen + szKey.length) 0)
      nTotalLen szKey.length = szKey := by
  apply readKey_eq
  intro i inKey
  rw [Function.update_of_ne (by omega), applyKey_behind szKey (by omega), isSealed.key i inKey]

/-- The key, combined once more with the first row, leaves the shuffled bytes. -/
theorem applyKey_shuffled (isSealed : Sealed padded szKey nTotalLen rows sealed) :
    ∀ k < nTotalLen, Function.update (applyKey (Function.update
      (applyKey sealed szKey szKey.length) (nTotalLen + szKey.length) 0) szKey szKey.length)
      nTotalLen 0 k = shuffle padded nTotalLen k := by
  intro k isInside
  rw [Function.update_of_ne (by omega), applyKey_apply, Function.update_of_ne (by omega),
    applyKey_apply, ← isSealed.shuffled k isInside]
  split_ifs
  · rw [UInt8.xor_assoc, UInt8.xor_self, UInt8.xor_zero]
  · rfl

end Sealed

theorem mDecryptBuffer_sealed {sealed : ℕ → UInt8} {rows : ℕ}
    (isPadded : Padded pBuffer padded bufferLen nTotalLen)
    (isSealed : Sealed padded szKey nTotalLen rows sealed)
    (isLong : szKey.length ≤ nTotalLen) (positive : 0 < szKey.length)
    (ends : ∀ letter ∈ szKey, endsKey letter = true) :
    ∃ decrypted, mDecryptBuffer (chain sealed szKey rows) szKey.length (rows * szKey.length)
        = some (decrypted, bufferLen)
      ∧ ∀ k < bufferLen, decrypted k = pBuffer k := by
  have notEmpty : 0 < rows := by
    have fits := isSealed.fits
    by_contra isEmpty
    rw [Nat.eq_zero_of_not_pos isEmpty, Nat.zero_mul] at fits
    omega
  have isDataLen : nTotalLen + (szKey.length - 1) + 1 = nTotalLen + szKey.length := by omega
  have notShort : ¬ nTotalLen + szKey.length < szKey.length := by omega
  rcases unshuffle_agree isSealed.applyKey_shuffled with ⟨unshuffled, behind⟩
  have isDataEnd := scanDown_padded isPadded unshuffled
    ((behind nTotalLen le_rfl).trans (Function.update_self _ _ _))
  simp only [mDecryptBuffer, Nat.mul_div_cancel rows positive, unchain_chain positive notEmpty,
    isSealed.scanDown_key isLong positive ends, Option.bind_some, isDataLen, if_neg notShort,
    Nat.add_sub_cancel, isSealed.readKey_behind isLong, isDataEnd, Option.map_some]
  refine ⟨_, rfl, ?_⟩
  intro k isData
  rw [Function.update_of_ne (by omega), Function.update_of_ne (by omega),
    unshuffled k (isData.trans isPadded.isLess), isPadded.data k isData]

end Stages

/-- Decryption restores the data and their length. -/
theorem mDecryptBuffer_mEncryptBuffer (rand : ℕ → ℕ) (pBuffer : ℕ → UInt8) (szKey : CipherKey)
    (bufferLen : ℕ) :
    ∃ decrypted,
      mDecryptBuffer (mEncryptBuffer rand pBuffer szKey.letters bufferLen).1 szKey.letters.length
          (mEncryptBuffer rand pBuffer szKey.letters bufferLen).2
        = some (decrypted, bufferLen)
      ∧ ∀ k < bufferLen, decrypted k = pBuffer k := by
  have positive : 0 < szKey.letters.length := Nat.lt_of_lt_of_le (by decide) szKey.atLeast
  have ends : ∀ letter ∈ szKey.letters, endsKey letter = true := by
    intro letter isLetter
    rcases szKey.upper letter isLetter with ⟨atLeast, atMost⟩
    simp only [endsKey, isAlpha, atLeast, atMost, decide_true, Bool.and_self, Bool.true_or]
  rcases mEncryptBuffer_sealed rand pBuffer bufferLen positive
    with ⟨padded, sealed, nTotalLen, rows, isPadded, isSealed, isLong, isEncrypted⟩
  rw [isEncrypted]
  exact mDecryptBuffer_sealed isPadded isSealed (by omega) positive ends

end PoETask.AuthServer
