import ModuleBundle.Graph

/-!
The bundle's text: one expression that runs the entry. Between a fixed head, which knows
how to require a module by its number, and a fixed tail stands a table with a row for every
module. A row gives the module's body as a function, and the numbers that its specifiers
lead to; the body has lines of its own, so that no comment in it reaches what follows.
-/

set_option autoImplicit false

namespace ModuleBundle

namespace Emission

def headLines : List String :=
  ["(function (modules) \x7b",
   "  var cache = \x7b\x7d;",
   "",
   "  function require(id) \x7b",
   "    if (Object.prototype.hasOwnProperty.call(cache, id)) \x7b",
   "      return cache[id].exports;",
   "    \x7d",
   "",
   "    var fn = modules[id][0];",
   "    var mapping = modules[id][1];",
   "",
   "    function localRequire(name) \x7b",
   "      if (!Object.prototype.hasOwnProperty.call(mapping, name)) \x7b",
   "        throw new Error(\"Cannot find module '\" + name + \"'\");",
   "      \x7d",
   "      return require(mapping[name]);",
   "    \x7d",
   "",
   "    var module = \x7b exports: \x7b\x7d \x7d;",
   "    cache[id] = module;",
   "    try \x7b",
   "      fn(localRequire, module, module.exports);",
   "    \x7d catch (e) \x7b",
   "      delete cache[id];",
   "      throw e;",
   "    \x7d",
   "    return module.exports;",
   "  \x7d",
   "",
   "  return require(0);",
   "\x7d)(\x7b"]

def headText : String := String.join (headLines.map (· ++ "\n"))

def tailText : String := "\x7d);\n"

def endsLine (c : Char) : Bool := c = '\n' || c = '\r' || c = '\u2028' || c = '\u2029'

def oneLine (text : String) : String :=
  String.ofList (text.toList.map fun c => if endsLine c then ' ' else c)

def label (a : Asset) : String :=
  match a.failure? with
  | none => a.path.text
  | some reason => a.path.text ++ " (empty: " ++ reason ++ ")"

def mappingText (mapping : Mapping) : String :=
  ", ".intercalate (mapping.map fun entry => quoted entry.1 ++ ": " ++ toString entry.2)

def row (a : Asset) : String :=
  "// " ++ toString a.id ++ ": " ++ oneLine (label a) ++ "\n" ++
    toString a.id ++ ": [function (require, module, exports) \x7b\n" ++
    a.body ++ "\n\x7d, \x7b" ++ mappingText a.mapping ++ "\x7d],\n"

def text (assets : List Asset) : String :=
  headText ++ String.join (assets.map row) ++ tailText

end Emission

def Graph.emit (g : Graph) : String := Emission.text g.assets

end ModuleBundle
