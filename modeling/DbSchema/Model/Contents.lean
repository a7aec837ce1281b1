import DbSchema.Model.Children

/-!
# What objects hold

The values of any shape that an object and the objects in it hold, in the order in which the object
is listed.

## Main definitions

* `Store.valuesOf` — the values in an object of any kind.
-/

namespace DbSchema.Store

/-- The values in a table. -/
def tableValues (st : Store) (t : TableId) : List Value :=
  let x := st.table t
  let fields := (orderedFields st t).toOption.getD []
  x.name ::
    ((fields.flatMap fun f => (st.field f).attributes.map (·.2)) ++
      (x.indices.flatMap fun i => (st.index i).attributes.map (·.2)) ++
      x.constraints.flatMap fun c => (st.constraint c).attributes.map (·.2))

/-- The values in an object and in the objects in it. -/
def valuesOf (st : Store) : Ref → List Value
  | .schema s =>
    let x := st.schema s
    x.name :: x.database :: x.tables.flatMap fun e => st.tableValues e.2
  | .table t => st.tableValues t
  | .field f => (st.field f).attributes.map (·.2)
  | .index i => (st.index i).attributes.map (·.2)
  | .constraint c => (st.constraint c).attributes.map (·.2)

end DbSchema.Store
