import MarkupGrammar.RelaxNg.Pattern

/-!
# Obstacles to an import

An element whose name keeps a colon has no name that could be asked for. Most of a grammar is never
looked at so closely that this matters. The import of an element looks for its description first,
then goes through its attributes, then through its content, and it stops at the first such element
among those it comes across.
-/

namespace MarkupGrammar

namespace Pattern

/-- The name of an element that cannot be named. -/
def misnamed? : Pattern → Option Text
  | .misnamed name => some name
  | _ => none

mutual

/-- The names of the attributes met in a list of patterns besides those met before, or an obstacle.
Of several attributes of one name only the first is looked into. -/
def meetAll (met : List Text) : List Pattern → Except Text (List Text)
  | [] => .ok met
  | p :: ps =>
    match meet met p with
    | .error name => .error name
    | .ok met => meetAll met ps

/-- The names of the attributes met in a pattern besides those met before, or an obstacle. -/
def meet (met : List Text) : Pattern → Except Text (List Text)
  | .misnamed name => .error name
  | .attr a =>
    if a.name.isEmpty || met.contains a.name then .ok met
    else
      match a.obstacle with
      | some name => .error name
      | none => .ok (a.name :: met)
  | .occurs _ body => meetAll met body
  | .combine kind body =>
    match kind with
    | .mixed => .ok met
    | _ => meetAll met body
  | .resolved _ body => meetAll met body
  | _ => .ok met

end

/-- The obstacle to finding the attributes of a list of patterns. -/
def attributeObstacle (ps : List Pattern) : Option Text :=
  match meetAll [] ps with
  | .error name => some name
  | .ok _ => none

mutual

/-- The obstacle inside a pattern of some content. All its parts are named before one is looked
into. -/
def innerObstacle : Pattern → Option Text
  | .occurs _ body => (body.findSome? misnamed?).or (innerObstacles body)
  | .combine _ body => (body.findSome? misnamed?).or (innerObstacles body)
  | .resolved _ body => (body.findSome? misnamed?).or (innerObstacles body)
  | _ => none

/-- The first obstacle inside the patterns of a list. -/
def innerObstacles : List Pattern → Option Text
  | [] => none
  | p :: ps => (innerObstacle p).or (innerObstacles ps)

end

/-- The obstacle to reading a list of patterns as content. -/
def contentObstacle (ps : List Pattern) : Option Text :=
  (ps.findSome? misnamed?).or (innerObstacles ps)

end Pattern

namespace RngGrammar

/-- The obstacle to the import of an element. -/
def obstacleOf (g : RngGrammar) (e : ElementPattern) : Option Text :=
  let body := Pattern.expandAll g.defines e.body
  (e.obstacle.or (Pattern.attributeObstacle body)).or (Pattern.contentObstacle body)

end RngGrammar

end MarkupGrammar
