namespace GlslFormula

def toolName : String := "cmplx-glsl"

def toolVersion : String := "0.3.2"

def versionLine : String := toolName ++ " " ++ toolVersion

end GlslFormula
