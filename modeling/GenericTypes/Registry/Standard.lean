import GenericTypes.Registry.Define

/-! # The standard registry

The registry that most users start from: the root `java.lang.Object`, the primitive types, and the
classes and interfaces of the standard packages that generic declarations build on. -/

namespace GenericTypes

namespace Registry

/-- The name of the root of the standard hierarchy. -/
def standardTop : String :=
  "java.lang.Object"

/-- The root and the primitive types. -/
def primitives : Registry :=
  Primitive.all.foldl (fun registry type => registry.insert (.primitive type)) (ofTop standardTop)

/-- The definition of a wrapper of numbers. -/
def numberDefinition (name : String) : Definition :=
  { name
    superclass := some "java.lang.Number"
    interfaces := ["java.lang.Comparable<" ++ name ++ ">"] }

/-- The classes and interfaces of the standard packages, supertypes first. -/
def standardDefinitions : List Definition :=
  [ { name := "java.io.Serializable", isInterface := true },
    { name := "java.lang.Cloneable", isInterface := true },
    { name := "java.lang.CharSequence", isInterface := true },
    { name := "java.lang.Comparable", isInterface := true, parameters := ["T"] },
    { name := "java.lang.Iterable", isInterface := true, parameters := ["T"] },
    { name := "java.util.Collection", isInterface := true, parameters := ["E"],
      interfaces := ["java.lang.Iterable<E>"] },
    { name := "java.util.List", isInterface := true, parameters := ["E"],
      interfaces := ["java.util.Collection<E>"] },
    { name := "java.util.Set", isInterface := true, parameters := ["E"],
      interfaces := ["java.util.Collection<E>"] },
    { name := "java.util.Map", isInterface := true, parameters := ["K", "V"] },
    { name := "java.lang.String",
      interfaces := ["java.io.Serializable", "java.lang.Comparable<java.lang.String>",
        "java.lang.CharSequence"] },
    { name := "java.lang.Number", interfaces := ["java.io.Serializable"] },
    { name := "java.lang.Void" },
    { name := "java.lang.Boolean",
      interfaces := ["java.io.Serializable", "java.lang.Comparable<java.lang.Boolean>"] },
    { name := "java.lang.Character",
      interfaces := ["java.io.Serializable", "java.lang.Comparable<java.lang.Character>"] },
    numberDefinition "java.lang.Byte",
    numberDefinition "java.lang.Short",
    numberDefinition "java.lang.Integer",
    numberDefinition "java.lang.Long",
    numberDefinition "java.lang.Float",
    numberDefinition "java.lang.Double",
    { name := "java.lang.Class", parameters := ["T"], interfaces := ["java.io.Serializable"] },
    { name := "java.util.AbstractCollection", parameters := ["E"],
      interfaces := ["java.util.Collection<E>"] },
    { name := "java.util.AbstractList", parameters := ["E"],
      superclass := some "java.util.AbstractCollection<E>",
      interfaces := ["java.util.List<E>"] },
    { name := "java.util.ArrayList", parameters := ["E"],
      superclass := some "java.util.AbstractList<E>",
      interfaces := ["java.util.List<E>", "java.lang.Cloneable", "java.io.Serializable"] },
    { name := "java.util.AbstractSet", parameters := ["E"],
      superclass := some "java.util.AbstractCollection<E>",
      interfaces := ["java.util.Set<E>"] },
    { name := "java.util.HashSet", parameters := ["E"],
      superclass := some "java.util.AbstractSet<E>",
      interfaces := ["java.util.Set<E>", "java.lang.Cloneable", "java.io.Serializable"] },
    { name := "java.util.AbstractMap", parameters := ["K", "V"],
      interfaces := ["java.util.Map<K, V>"] },
    { name := "java.util.HashMap", parameters := ["K", "V"],
      superclass := some "java.util.AbstractMap<K, V>",
      interfaces := ["java.util.Map<K, V>", "java.lang.Cloneable", "java.io.Serializable"] } ]

/-- The standard registry. -/
def standard : Registry :=
  (primitives.defineAll standardDefinitions).2

end Registry

end GenericTypes
