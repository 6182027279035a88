import TransferClient.Base64

namespace TransferClient.Pem

-- A reader takes the lines between two boundaries together, however many there are and
-- however long, also when some are empty.
def decode (opening closing text : List UInt8) : Option (List UInt8) :=
  match text.splitOn 10 with
  | [] => none
  | line :: lines =>
      if line = opening ∧ closing ∈ lines then Base64.decode (lines.takeWhile (· ≠ closing)).flatten
      else none

theorem flatten_splitOn (text : List UInt8) :
    (text.splitOn 10).flatten = text.filter (· != 10) := by
  induction text with
  | nil => rfl
  | cons c text ih =>
      rw [List.splitOn_cons_eq_if_modifyHead]
      by_cases hc : c = 10
      · simpa [hc] using ih
      · cases hlines : text.splitOn 10 with
        | nil => exact absurd hlines (List.splitOn_ne_nil 10 text)
        | cons line lines =>
            rw [hlines] at ih
            simpa [hc] using ih

-- No line of a text has characters that the text has not.
theorem mem_of_mem_splitOn (text line : List UInt8) (hline : line ∈ text.splitOn 10) :
    ∀ c ∈ line, c ∈ text := by
  intro c hc
  have hflat : c ∈ (text.splitOn 10).flatten := List.mem_flatten.mpr ⟨line, hline, hc⟩
  rw [flatten_splitOn] at hflat
  exact List.mem_of_mem_filter hflat

-- What stands between the boundaries is read back, as long as it has no hyphens.
theorem decode_lines (opening closing body : List UInt8) (hopening : 10 ∉ opening)
    (hclosing : 10 ∉ closing) (hyphen : 45 ∈ closing) (hbody : 45 ∉ body) :
    decode opening closing (opening ++ 10 :: (body ++ 10 :: (closing ++ [10]))) =
      Base64.decode (body.filter (· != 10)) := by
  have hlines : (opening ++ 10 :: (body ++ 10 :: (closing ++ [10]))).splitOn 10 =
      opening :: (body.splitOn 10 ++ [closing, []]) := by
    rw [List.splitOn_append_cons_self_of_not_mem hopening, List.splitOn_append_cons_self,
      List.splitOn_append_cons_self_of_not_mem hclosing]
    rfl
  have hother : ∀ line ∈ body.splitOn 10, decide (line ≠ closing) = true := by
    intro line hline
    rw [decide_eq_true_iff]
    rintro rfl
    exact hbody (mem_of_mem_splitOn body _ hline 45 hyphen)
  have hbetween : (body.splitOn 10 ++ [closing, []]).takeWhile (· ≠ closing) = body.splitOn 10 := by
    rw [List.takeWhile_append_of_pos hother]
    simp
  rw [decode, hlines]
  simp only [List.mem_append, List.mem_cons, true_or, or_true, and_self, if_true]
  rw [hbetween, flatten_splitOn]

end TransferClient.Pem
