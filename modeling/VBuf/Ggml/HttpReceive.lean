import VBuf.Ggml.HttpRange

/-!
# Receiving a response

The loops over `recv`, for every way in which the stream is cut, and byte by byte.
-/

namespace VBuf.Ggml.HttpRangeSource

open VBuf.Lib

/-! ### However it is cut -/

theorem bodyStart_append {xs : List UInt8} {n : Nat} (h : bodyStart xs = some n) (ys : List UInt8) :
    4 ≤ n ∧ n ≤ xs.length ∧ bodyStart (xs ++ ys) = some n := by
  induction xs generalizing n with
  | nil => cases h
  | cons byte rest ih =>
      rw [bodyStart] at h
      rw [List.cons_append, bodyStart]
      split at h
      next hend =>
        cases h
        refine ⟨Nat.le_refl 4, hend.length_le, if_pos ?_⟩
        rw [← List.cons_append]
        exact hend.trans (List.prefix_append _ _)
      next hend =>
        rw [Option.map_eq_some_iff] at h
        obtain ⟨m, hm, rfl⟩ := h
        obtain ⟨hfour, hle, hrest⟩ := ih hm
        -- `rest` holds a blank line, so the four bytes here are all received.
        have hmore : ¬ crlfCrlf <+: byte :: (rest ++ ys) := by
          intro hmore
          rw [← List.cons_append] at hmore
          refine hend (List.prefix_of_prefix_length_le hmore (List.prefix_append _ _) ?_)
          show 4 ≤ rest.length + 1
          omega
        rw [if_neg hmore, hrest, List.length_cons]
        exact ⟨by omega, by omega, rfl⟩

/-- Received bytes show the end of the header when they reach it. -/
theorem bodyStart_of_append {xs ys : List UInt8} {n : Nat} (h : bodyStart (xs ++ ys) = some n) :
    bodyStart xs = if n ≤ xs.length then some n else none := by
  split
  next hle =>
    induction xs generalizing n with
    | nil =>
        have hfour := (bodyStart_append h []).1
        rw [List.length_nil] at hle
        omega
    | cons byte rest ih =>
        rw [List.cons_append, bodyStart] at h
        rw [bodyStart]
        split at h
        next hend =>
          cases h
          rw [← List.cons_append] at hend
          exact if_pos (List.prefix_of_prefix_length_le hend (List.prefix_append _ _) hle)
        next hend =>
          rw [Option.map_eq_some_iff] at h
          obtain ⟨m, hm, rfl⟩ := h
          rw [if_neg, ih hm (Nat.le_of_succ_le_succ hle)]
          · rfl
          · intro hmore
            refine hend (hmore.trans ?_)
            rw [← List.cons_append]
            exact List.prefix_append _ _
  next hlt =>
    -- An end found in fewer bytes would be the end of the whole.
    cases hsome : bodyStart xs with
    | none => rfl
    | some k =>
        obtain ⟨-, hle, hmore⟩ := bodyStart_append hsome ys
        cases h.symm.trans hmore
        exact absurd hle hlt

/-- The header is found, however it is cut. -/
theorem receiveHeader_eq {cut : Nat → Nat} {header body : List UInt8}
    (hend : bodyStart header = some header.length) (hshort : header.length ≤ 65536) {fuel : Nat}
    {turn : Nat} {seen rest : List UInt8} (hstream : seen ++ rest = header ++ body)
    (hseen : seen.length < header.length) (hfuel : rest.length < fuel) :
    ∃ received left next, receiveHeader cut fuel turn seen rest = .done received left next ∧
      received ++ left = header ++ body ∧ header.length ≤ received.length := by
  induction fuel generalizing turn seen rest with
  | zero => omega
  | succ fuel ih =>
      have hlength := congrArg List.length hstream
      rw [List.length_append, List.length_append] at hlength
      have hrest : rest ≠ [] := by
        rintro rfl
        rw [List.length_nil] at hlength
        omega
      have hpos : 0 < rest.length := List.length_pos_iff.2 hrest
      rw [receiveHeader, if_neg hrest, if_neg (by omega)]
      dsimp only
      have hnext : (seen ++ rest.take (min 4096 (max 1 (cut turn)))) ++
          rest.drop (min 4096 (max 1 (cut turn))) = header ++ body := by
        rw [List.append_assoc, List.take_append_drop, hstream]
      have hsearch := bodyStart_of_append (hnext ▸ (bodyStart_append hend body).2.2)
      split at hsearch
      next hreached =>
        rw [hsearch]
        exact ⟨_, _, _, rfl, hnext, hreached⟩
      next hbefore =>
        rw [hsearch]
        refine ih hnext (Nat.lt_of_not_le hbefore) ?_
        rw [List.length_drop]
        omega

/-- A body that is shorter than the range is waited for, and one of its length is read. -/
theorem receiveBody_eq {cut : Nat → Nat} {length fuel turn : Nat}
    {body received rest : List UInt8} (hstream : received ++ rest = body)
    (hreceived : received.length ≤ length)
    (hfuel : rest.length < fuel) :
    (body.length < length → receiveBody cut length fuel turn received rest = .waiting) ∧
      (body.length = length → ∃ next,
        receiveBody cut length fuel turn received rest = .done body [] next) ∧
      (length < body.length → receiveBody cut length fuel turn received rest ≠ .waiting) := by
  induction fuel generalizing turn received rest with
  | zero => omega
  | succ fuel ih =>
      have hlength := congrArg List.length hstream
      rw [List.length_append] at hlength
      rw [receiveBody]
      split
      next hcomplete =>
        refine ⟨fun hshort => by omega, fun hsame => ?_, fun _ => Received.noConfusion⟩
        obtain rfl : rest = [] := List.length_eq_zero_iff.1 (by omega)
        rw [List.append_nil] at hstream
        exact ⟨turn, by rw [hstream]⟩
      next hopen =>
        split
        next hempty =>
          subst hempty
          rw [List.length_nil] at hlength
          exact ⟨fun _ => rfl, fun hsame => by omega, fun hlong => by omega⟩
        next hmore =>
          have hpos : 0 < rest.length := List.length_pos_iff.2 hmore
          dsimp only
          rw [List.length_take]
          split
          next hsurplus =>
            exact ⟨fun hshort => by omega, fun hsame => by omega, fun _ => Received.noConfusion⟩
          next hfits =>
            refine ih ?_ ?_ ?_
            · rw [List.append_assoc, List.take_eq_take_min, List.take_append_drop, hstream]
            · rw [List.length_append, List.length_take]
              omega
            · rw [List.length_drop]
              omega

/-! ### Byte by byte -/

/-- Byte by byte, the header is received without any of the body. -/
theorem receiveHeader_bytes {header body : List UInt8}
    (hend : bodyStart header = some header.length) (hshort : header.length ≤ 65536) {fuel : Nat}
    {turn : Nat} {seen rest : List UInt8} (hstream : seen ++ rest = header ++ body)
    (hseen : seen.length < header.length) (hfuel : rest.length < fuel) :
    ∃ next, receiveHeader (fun _ => 1) fuel turn seen rest = .done header body next := by
  induction fuel generalizing turn seen rest with
  | zero => omega
  | succ fuel ih =>
      have hlength := congrArg List.length hstream
      rw [List.length_append, List.length_append] at hlength
      have hrest : rest ≠ [] := by
        rintro rfl
        rw [List.length_nil] at hlength
        omega
      have hpos : 0 < rest.length := List.length_pos_iff.2 hrest
      have hone : min 4096 (max 1 1) = 1 := rfl
      rw [receiveHeader, if_neg hrest, if_neg (by omega)]
      dsimp only
      rw [hone]
      have hnext : (seen ++ rest.take 1) ++ rest.drop 1 = header ++ body := by
        rw [List.append_assoc, List.take_append_drop, hstream]
      have hcount : (seen ++ rest.take 1).length = seen.length + 1 := by
        rw [List.length_append, List.length_take]
        omega
      have hsearch := bodyStart_of_append (hnext ▸ (bodyStart_append hend body).2.2)
      split at hsearch
      next hreached =>
        rw [hsearch]
        have hsame := List.append_inj hnext (by omega)
        rw [hsame.1, hsame.2]
        exact ⟨_, rfl⟩
      next hbefore =>
        rw [hsearch]
        refine ih hnext (Nat.lt_of_not_le hbefore) ?_
        rw [List.length_drop]
        omega

/-- Byte by byte, the client stops at the length that it has asked for. -/
theorem receiveBody_bytes {length fuel turn : Nat} {body received rest : List UInt8}
    (hstream : received ++ rest = body) (hreceived : received.length ≤ length)
    (hlong : length ≤ body.length) (hfuel : rest.length < fuel) :
    ∃ next, receiveBody (fun _ => 1) length fuel turn received rest =
      .done (body.take length) (body.drop length) next := by
  induction fuel generalizing turn received rest with
  | zero => omega
  | succ fuel ih =>
      have hlength := congrArg List.length hstream
      rw [List.length_append] at hlength
      rw [receiveBody]
      split
      next hcomplete =>
        have hsame : received.length = length := by omega
        rw [← hstream, ← hsame, List.take_left, List.drop_left]
        exact ⟨_, rfl⟩
      next hopen =>
        have hrest : rest ≠ [] := by
          rintro rfl
          rw [List.length_nil] at hlength
          omega
        have hpos : 0 < rest.length := List.length_pos_iff.2 hrest
        have hone : min (min 4096 (length - received.length + 1)) (max 1 1) = 1 := by omega
        have hchunk : (rest.take 1).length = 1 := by
          rw [List.length_take]
          omega
        rw [if_neg hrest]
        dsimp only
        rw [hone, hchunk, if_neg (by omega)]
        refine ih ?_ ?_ ?_
        · rw [List.append_assoc, List.take_append_drop, hstream]
        · rw [List.length_append, hchunk]
          omega
        · rw [List.length_drop]
          omega

end VBuf.Ggml.HttpRangeSource
