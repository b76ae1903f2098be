import SchemaGate.Render.Options

/-!
# The datasource header

The file beside the models that names the client generator and the database.
-/

namespace SchemaGate

def datasourceFilename : String := "main.prisma"

def Provider.datasource (p : Provider) : String :=
  "\n".intercalate <| match p with
    | .postgresql =>
      ["generator client \x7b",
        "  provider        = \"prisma-client-js\"",
        "  previewFeatures = [\"postgresqlExtensions\"]",
        "\x7d",
        "",
        "datasource db \x7b",
        "  provider   = \"postgresql\"",
        "  url        = env(\"DATABASE_URL\")",
        "  extensions = [pg_trgm]",
        "\x7d",
        ""]
    | .sqlite =>
      ["generator client \x7b",
        "  provider = \"prisma-client-js\"",
        "\x7d",
        "",
        "datasource db \x7b",
        "  provider = \"sqlite\"",
        "  url      = env(\"DATABASE_URL\")",
        "\x7d",
        ""]

end SchemaGate
