import Phrasebook.Message

/-! A message is its segments with the braces of the placeholders put back: `source_segments`. -/
namespace Phrasebook

/-- How a segment is written in a message. -/
def Segment.source : Segment → List Char
  | .literal text => text
  | .parameter name => '\x7b' :: name ++ ['\x7d']

namespace Message

theorem source_literals (text : List Char) : (literals text).flatMap Segment.source = text := by
  rw [literals]
  split
  next blank => rw [List.isEmpty_iff.mp blank]; rfl
  · simp [Segment.source]

/-- Cutting a message into segments loses nothing. -/
theorem source_segments (text : List Char) : (segments text).flatMap Segment.source = text := by
  induction text using segments.induct with
  | case1 text opened => rw [segments_of_none opened,source_literals]
  | case2 text before after opened shorter closed ih =>
    obtain ⟨cut,-⟩ := Text.cutAt_eq_some.mp opened
    rw [segments_of_open opened closed,List.flatMap_cons,ih,cut]
    simp [Segment.source]
  | case3 text before after opened shorter name rest closed shorter' ih =>
    obtain ⟨cut,-⟩ := Text.cutAt_eq_some.mp opened
    obtain ⟨inside,-⟩ := Text.cutAt_eq_some.mp (Option.filter_eq_some_iff.mp closed).1
    rw [segments_of_placeholder opened closed,List.flatMap_append,source_literals,List.flatMap_cons,ih,cut,inside]
    simp [Segment.source]

end Message
end Phrasebook
