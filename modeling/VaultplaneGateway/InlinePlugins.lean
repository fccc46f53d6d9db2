import VaultplaneGateway.WireFormats

/-!
# The inline plugin chain

Plugins are arbitrary functions from a request to a decision: the chain is
verified for every plugin, native or WebAssembly. A plugin bound to other routes
is skipped, a modification replaces the body for the rest of the chain, and the
first rejection ends it.
-/
namespace VaultplaneGateway.InlinePlugins
open WireFormats

structure PluginRequest where
  method : String
  path : String
  headers : List (String × String)
  body : Bytes
  deriving DecidableEq, Repr

structure RejectInfo where
  reason : String
  statusCode : UInt16
  deriving DecidableEq, Repr

inductive Decision where
  | pass
  | modify (request : PluginRequest)
  | reject (info : RejectInfo)
  deriving DecidableEq, Repr

structure Plugin where
  name : String
  inspectRequest : PluginRequest → Decision

structure PluginEntry where
  plugin : Plugin
  bindRoutes : List String

def PluginEntry.appliesTo (e : PluginEntry) (virtualModel : String) : Bool :=
  e.bindRoutes.isEmpty || e.bindRoutes.any fun r => r == virtualModel

structure PluginRejection where
  plugin : String
  info : RejectInfo
  deriving DecidableEq, Repr

/-- The request a plugin sees: only path and body vary. -/
def pluginRequest (path : String) (body : Bytes) : PluginRequest := ⟨"POST", path, [], body⟩

/-- The source's loop, with `current` as its accumulator. -/
def runPlugins (plugins : List PluginEntry) (path virtualModel : String) (current : Bytes) :
    Except PluginRejection Bytes :=
  match plugins with
  | [] => .ok current
  | entry :: rest =>
      if entry.appliesTo virtualModel then
        match entry.plugin.inspectRequest (pluginRequest path current) with
        | .pass => runPlugins rest path virtualModel current
        | .modify updated => runPlugins rest path virtualModel updated.body
        | .reject info => .error ⟨entry.plugin.name, info⟩
      else runPlugins rest path virtualModel current

/-- The body after one plugin, for a plugin that does not reject. -/
def modified (path : String) (body : Bytes) (entry : PluginEntry) : Bytes :=
  match entry.plugin.inspectRequest (pluginRequest path body) with
  | .modify updated => updated.body
  | _ => body

def applicable (plugins : List PluginEntry) (virtualModel : String) : List PluginEntry :=
  plugins.filter fun e => e.appliesTo virtualModel

/-- An accepted body is the left-to-right composition of the modifications of
the applicable plugins. -/
theorem runPlugins_ok {plugins : List PluginEntry} {path virtualModel : String}
    {body result : Bytes} (h : runPlugins plugins path virtualModel body = .ok result) :
    result = (applicable plugins virtualModel).foldl (modified path) body := by
  induction plugins generalizing body with
  | nil => exact (Except.ok.inj h).symm
  | cons entry rest ih =>
      unfold runPlugins at h
      unfold applicable at ih ⊢
      split_ifs at h with happ
      · rw [List.filter_cons, if_pos happ, List.foldl_cons]
        split at h
        · rename_i hpass
          simpa only [modified, hpass] using ih h
        · rename_i updated hmod
          simpa only [modified, hmod] using ih h
        · cases h
      · rw [List.filter_cons, if_neg happ]
        exact ih h

end VaultplaneGateway.InlinePlugins
