import QuerySynth.Config.Basic
import QuerySynth.Json.Value

/-!
# Reports of configurations

A configuration as a JSON object, with every setting under the name that it has
in configuration files and in the order in which they are declared.
-/

namespace QuerySynth

/-- The weights as an object of lists. -/
def Weights.report (weights : Weights) : Json.Value :=
  .object (WeightGroup.all.map fun group =>
    (group.name, .array ((weights.get group).map fun weight => .nat weight.toNat)))

/-- The pool sizes as an object; a size that is not given is null. -/
def PoolSizes.report (sizes : PoolSizes) : Json.Value :=
  .object (("default", .nat sizes.standard.toNat) ::
    Kind.all.map fun kind =>
      (kind.keyword,
        match sizes.overrides.get kind with
        | some count => .number (Decimal.intText count.toInt)
        | none => .null))

/-- A configuration as an object. -/
def Config.report (config : Config) : Json.Value :=
  .object
    [("weights", config.weights.report),
      ("pools", config.pools.report),
      ("iden_len", .nat config.idenLen.toNat),
      ("and_limit", .nat config.andLimit.toNat),
      ("and_decay", .number (Decimal.Layout.report.render config.andDecay)),
      ("select_limit", .nat config.selectLimit.toNat),
      ("num_queries", .nat config.numQueries.toNat),
      ("len_queries", .nat config.lenQueries.toNat),
      ("comment", .string config.comment),
      ("timeout", .string config.timeout),
      ("allow_error", .boolean config.allowError),
      ("line_refs", .boolean config.lineRefs)]

end QuerySynth
